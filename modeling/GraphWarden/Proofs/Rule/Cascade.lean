import GraphWarden.Proofs.Filter.Filled
import GraphWarden.Proofs.Rule.Parts
import GraphWarden.Proofs.Store.Shown
import GraphWarden.Visibility

/-!
# Cascades

A template is lowered into one filter: conditions are merged and simplified on the way, while
they still hold variables, and what is asked of the nodes behind a field becomes one filter
there, or mere presence when nothing is asked.  `Template.Answered` says directly when a node
answers a template, walking the graph along its selected fields, with the claims in place of the
variables.

The two agree wherever no stored node holds a scalar in a field behind which something is asked
(`Graph.LeadsOn`); such a field is present, and still no node stands behind it:

* `answered_of_condition` — a node for which the store says yes answers the template;
* `meets_of_answered` — of a node that answers the template the filter is true;
* `condition_isSome` — the store can evaluate the filter when it can evaluate each filter that is
  written in the template.

`lowered_keeps_cascade` puts them together for every rule that a text writes.
-/

namespace GraphWarden

/-- Whether a node holds a scalar in a field. -/
def Node.holdsScalar (n : Node) (field : String) : Bool :=
  match n.fields.find? field with
  | some (.scalar _) => true
  | _ => false

namespace Pick

/-- The field that is selected. -/
def name : Pick → String
  | .field name _ _ => name

/-- The filter on the nodes behind the field. -/
def filter : Pick → Option Filter
  | .field _ filter _ => filter

/-- Whether nothing is asked of the nodes behind the field. -/
def isPlain : Pick → Bool
  | .field _ filter picks => picks.isEmpty && filter.isNone

mutual

/-- A selected field, and all that is selected behind it. -/
def everyAt : Pick → List Pick
  | .field name filter picks => .field name filter picks :: everyOf picks

def everyOf : List Pick → List Pick
  | [] => []
  | p :: ps => everyAt p ++ everyOf ps

end

mutual

/-- A node answers a selected field: it has the field, or behind the field stands a node that
satisfies the filter and answers what is selected there. -/
def Answered (g : Graph) (claims : Claims) (n : Node) : Pick → Prop
  | .field name filter picks =>
    if picks.isEmpty && filter.isNone then name = "id" ∨ g.hasField n name = true
    else ∃ m ∈ g.behind n name,
      Filter.acceptsIfAny g (filter.map (Filter.filled claims)) m = .ok true ∧
        AllAnswered g claims m picks

def AllAnswered (g : Graph) (claims : Claims) (n : Node) : List Pick → Prop
  | [] => True
  | p :: ps => Answered g claims n p ∧ AllAnswered g claims n ps

end

end Pick

namespace Template

/-- What a template selects, at every depth. -/
def everywhere (t : Template) : List Pick :=
  Pick.everyOf t.picks

/-- The filters that are written in a template. -/
def filters (t : Template) : List Filter :=
  t.filter.toList ++ t.everywhere.flatMap fun p => p.filter.toList

/-- A node answers a template: it satisfies the filter and answers what is selected. -/
def Answered (g : Graph) (claims : Claims) (n : Node) (t : Template) : Prop :=
  Filter.acceptsIfAny g (t.filter.map (Filter.filled claims)) n = .ok true ∧
    Pick.AllAnswered g claims n t.picks

/-- The store can evaluate the filters of a template, with the claims in them, on every node. -/
def Evaluates (g : Graph) (claims : Claims) (t : Template) : Prop :=
  ∀ f ∈ t.filters, ∀ n ∈ g.toList, ((f.filled claims).accepts g n).isOk = true

instance (g : Graph) (claims : Claims) (t : Template) : Decidable (t.Evaluates g claims) :=
  inferInstanceAs (Decidable (∀ f ∈ t.filters, ∀ n ∈ g.toList,
    ((f.filled claims).accepts g n).isOk = true))

end Template

/-- No stored node holds a scalar in a field behind which something is asked. -/
def Graph.LeadsOn (g : Graph) (picks : List Pick) : Prop :=
  ∀ p ∈ picks, p.isPlain = false → ∀ n ∈ g.toList, n.holdsScalar p.name = false

instance (g : Graph) (picks : List Pick) : Decidable (g.LeadsOn picks) :=
  inferInstanceAs (Decidable (∀ p ∈ picks, p.isPlain = false →
    ∀ n ∈ g.toList, n.holdsScalar p.name = false))

/-! ### Behind a field -/

/-- What is asked of a field: a node behind it for which a condition holds, or, without a
condition, that it is there. -/
def Filter.along (field : String) : Option Filter → Filter
  | none => .has field
  | some inner => .edge field inner

section Along

variable {g : Graph} {n m : Node} {field : String} {claims : Claims} {inner : Option Filter}

theorem Graph.mem_toList_of_behind (hm : m ∈ g.behind n field) : m ∈ g.toList := by
  unfold behind at hm
  split at hm
  · exact (mem_among_iff.1 hm).1
  · simp at hm

/-- A field behind which a node stands is present. -/
theorem Graph.hasField_of_behind (hm : m ∈ g.behind n field) : g.hasField n field = true := by
  unfold behind at hm
  unfold hasField
  split at hm
  · next targets hedges =>
      obtain ⟨id, hid, hfind⟩ := List.mem_filterMap.1 hm
      rw [hedges]
      exact List.any_eq_true.2 ⟨id, hid, by simp [hfind]⟩
  · simp at hm

/-- A field that is present and holds no scalar has a node behind it. -/
theorem Graph.exists_behind (hscalar : n.holdsScalar field = false)
    (h : g.hasField n field = true) : ∃ m, m ∈ g.behind n field := by
  unfold hasField at h
  unfold Node.holdsScalar at hscalar
  unfold behind
  cases hvalue : n.fields.find? field with
  | none => simp [hvalue] at h
  | some value =>
      cases value with
      | scalar v => simp [hvalue] at hscalar
      | edges targets =>
          simp only [hvalue, List.any_eq_true] at h
          obtain ⟨id, hid, hsome⟩ := h
          obtain ⟨m, hm⟩ := Option.isSome_iff_exists.1 hsome
          exact ⟨m, List.mem_filterMap.2 ⟨id, hid, hm⟩⟩

namespace Filter

/-- A store says yes to a bound filter that may be missing when it says yes to the filter that is
there. -/
theorem acceptsIfAny_filled {filter : Option Filter} :
    acceptsIfAny g (filter.map (filled claims)) n = .ok true ↔
      ∀ f ∈ filter, verdict g n (f.filled claims) = some true := by
  cases filter <;> simp [acceptsIfAny, verdict_eq_some_iff]

/-- A store that says yes of a field without scalars has come to a node behind it. -/
theorem exists_of_verdict_along (hscalar : n.holdsScalar field = false)
    (h : verdict g n ((along field inner).filled claims) = some true) :
    ∃ m ∈ g.behind n field, ∀ f ∈ inner, verdict g m (f.filled claims) = some true := by
  rw [verdict_eq_some_iff] at h
  cases inner with
  | none =>
      obtain ⟨m, hm⟩ := Graph.exists_behind hscalar (by simpa [along, filled, accepts] using h)
      exact ⟨m, hm, by simp⟩
  | some f =>
      rw [along, filled, accepts] at h
      obtain ⟨m, hm, hf⟩ := exists_of_anyM h
      exact ⟨m, hm, by simpa [verdict_eq_some_iff] using hf⟩

/-- A filter along a field holds of a node when some node behind the field satisfies it. -/
theorem meets_along (hm : m ∈ g.behind n field)
    (h : ∀ f ∈ inner, (f.filled claims).meets g m = true) :
    ((along field inner).filled claims).meets g n = true := by
  cases inner with
  | none => simpa [along, filled, meets] using Graph.hasField_of_behind hm
  | some f =>
      rw [along, filled, meets, List.any_eq_true]
      exact ⟨m, hm, h f rfl⟩

/-- A filter along a field can be evaluated when it can be on all nodes, since any of them might
stand behind the field. -/
theorem verdict_along_isSome
    (h : ∀ m ∈ g.toList, ∀ f ∈ inner, (verdict g m (f.filled claims)).isSome) :
    (verdict g n ((along field inner).filled claims)).isSome := by
  cases inner with
  | none => simp [along, filled, verdict, accepts, Except.toOption]
  | some f =>
      have hbehind : ∀ m ∈ g.behind n field, ((f.filled claims).accepts g m).isOk = true := by
        intro m hm
        obtain ⟨b, hb⟩ := Option.isSome_iff_exists.1 (h m (Graph.mem_toList_of_behind hm) f rfl)
        rw [verdict_eq_some_iff.1 hb]
        rfl
      obtain ⟨b, hb⟩ := anyM_isOk hbehind
      rw [along, filled, verdict, accepts, hb]
      rfl

end Filter

end Along

namespace Pick

variable {g : Graph} {claims : Claims}

/-! ### What a selected field asks for -/

/-- What is asked of the nodes behind a field. -/
def inner (filter : Option Filter) (picks : List Pick) : Option Filter :=
  Filter.conjunction? (filter.toList ++ conditions picks)

/-- A field of which nothing more is asked has to be there, unless it is the id, which every node
has. -/
theorem condition_of_plain {name : String} {filter : Option Filter} {picks : List Pick}
    (h : (picks.isEmpty && filter.isNone) = true) :
    (Pick.field name filter picks).condition = if name = "id" then none else some (.has name) := by
  rw [condition, if_pos h]

/-- Of any other field something is asked of the nodes behind it. -/
theorem condition_of_asked {name : String} {filter : Option Filter} {picks : List Pick}
    (h : ¬ (picks.isEmpty && filter.isNone) = true) :
    (Pick.field name filter picks).condition = some (.along name (inner filter picks)) := by
  rw [condition, if_neg h, inner]
  cases Filter.conjunction? (filter.toList ++ conditions picks) <;> rfl

/-- What is asked of the nodes behind a field is asked part by part. -/
theorem inner_eq_true_iff {v : Filter → Option Bool} (hv : Filter.Reading v)
    {filter : Option Filter} {picks : List Pick} :
    (∀ f ∈ inner filter picks, v f = some true) ↔
      (∀ f ∈ filter, v f = some true) ∧ ∀ f ∈ conditions picks, v f = some true := by
  rw [inner, hv.conjunction?_eq_true_iff]
  simp [or_imp, forall_and]

mutual

/-- **A node for which the store says yes answers the selected field.** -/
theorem answered_of_condition : (p : Pick) → g.LeadsOn p.everyAt → (n : Node) → n ∈ g.toList →
    (∀ f ∈ p.condition, Filter.verdict g n (f.filled claims) = some true) → p.Answered g claims n
  | .field name filter picks, hedges, n, hn, h => by
      rw [Answered]
      by_cases hplain : (picks.isEmpty && filter.isNone) = true
      · rw [if_pos hplain]
        rw [condition_of_plain hplain] at h
        by_cases hid : name = "id"
        · exact .inl hid
        · have hhas := h (.has name) (by simp [hid])
          simp only [Filter.filled, Filter.verdict_eq_some_iff, Filter.accepts] at hhas
          exact .inr (Except.ok.inj hhas)
      · rw [if_neg hplain]
        rw [condition_of_asked hplain] at h
        have hscalar : n.holdsScalar name = false :=
          hedges (.field name filter picks) (by simp [everyAt]) (by simp [isPlain, hplain]) n hn
        obtain ⟨m, hm, hinner⟩ := Filter.exists_of_verdict_along hscalar (h _ rfl)
        obtain ⟨hfilter, hpicks⟩ :=
          (inner_eq_true_iff ((Filter.verdict_reading g m).filled claims)).1 hinner
        have hbelow : g.LeadsOn (everyOf picks) := fun p hp => hedges p (by simp [everyAt, hp])
        exact ⟨m, hm, Filter.acceptsIfAny_filled.2 hfilter,
          allAnswered_of_conditions picks hbelow m (Graph.mem_toList_of_behind hm) hpicks⟩

/-- What the conditions of several fields say yes to answers all of these fields. -/
theorem allAnswered_of_conditions : (ps : List Pick) → g.LeadsOn (everyOf ps) → (n : Node) →
    n ∈ g.toList → (∀ f ∈ conditions ps, Filter.verdict g n (f.filled claims) = some true) →
    AllAnswered g claims n ps
  | [], _, _, _, _ => by simp [AllAnswered]
  | p :: ps, hedges, n, hn, h => by
      simp only [conditions, List.mem_append, or_imp, forall_and, Option.mem_toList] at h
      have hhead : g.LeadsOn p.everyAt := fun q hq => hedges q (by simp [everyOf, hq])
      have htail : g.LeadsOn (everyOf ps) := fun q hq => hedges q (by simp [everyOf, hq])
      rw [AllAnswered]
      exact ⟨answered_of_condition p hhead n hn h.1, allAnswered_of_conditions ps htail n hn h.2⟩

end

mutual

/-- **Of a node that answers a selected field its condition is true.** -/
theorem meets_of_answered : (p : Pick) → (n : Node) → p.Answered g claims n →
    ∀ f ∈ p.condition, (f.filled claims).meets g n = true
  | .field name filter picks, n, h => by
      rw [Answered] at h
      by_cases hplain : (picks.isEmpty && filter.isNone) = true
      · rw [if_pos hplain] at h
        rw [condition_of_plain hplain]
        by_cases hid : name = "id"
        · simp [hid]
        · have hhas : g.hasField n name = true := h.resolve_left hid
          simp [hid, Filter.filled, Filter.meets, hhas]
      · rw [if_neg hplain] at h
        obtain ⟨m, hm, hfilter, hpicks⟩ := h
        have hinner := (inner_eq_true_iff ((Filter.meets_reading g m).filled claims)).2
          ⟨fun f hf => congrArg some
            (Filter.meets_of_verdict (Filter.acceptsIfAny_filled.1 hfilter f hf)),
          fun f hf => congrArg some (meets_of_allAnswered picks m hpicks f hf)⟩
        rw [condition_of_asked hplain]
        intro f hf
        obtain rfl := Option.mem_some_iff.1 hf
        exact Filter.meets_along hm fun f hf => Option.some.inj (hinner f hf)

/-- Of a node that answers several fields all of their conditions are true. -/
theorem meets_of_allAnswered : (ps : List Pick) → (n : Node) → AllAnswered g claims n ps →
    ∀ f ∈ conditions ps, (f.filled claims).meets g n = true
  | [], _, _ => by simp [conditions]
  | p :: ps, n, h => by
      rw [AllAnswered] at h
      intro f hf
      rw [conditions, List.mem_append, Option.mem_toList] at hf
      rcases hf with hf | hf
      · exact meets_of_answered p n h.1 f hf
      · exact meets_of_allAnswered ps n h.2 f hf

end

mutual

/-- **The store can evaluate what a selected field asks for** when it can evaluate each filter
that is written behind it. -/
theorem condition_isSome : (p : Pick) →
    (∀ q ∈ p.everyAt, ∀ f ∈ q.filter, ∀ n ∈ g.toList,
      (Filter.verdict g n (f.filled claims)).isSome) →
    ∀ f ∈ p.condition, ∀ n ∈ g.toList, (Filter.verdict g n (f.filled claims)).isSome
  | .field name filter picks, h => by
      intro f hf n hn
      by_cases hplain : (picks.isEmpty && filter.isNone) = true
      · rw [condition_of_plain hplain] at hf
        split at hf
        · simp at hf
        · obtain rfl := Option.mem_some_iff.1 hf
          simp [Filter.filled, Filter.verdict, Filter.accepts, Except.toOption]
      · rw [condition_of_asked hplain] at hf
        obtain rfl := Option.mem_some_iff.1 hf
        have hbelow := conditions_isSome picks fun q hq => h q (by simp [everyAt, hq])
        refine Filter.verdict_along_isSome fun m hm =>
          ((Filter.verdict_reading g m).filled claims).conjunction?_isSome fun f hf => ?_
        rcases List.mem_append.1 hf with hf | hf
        · exact h (.field name filter picks) (by simp [everyAt]) f (Option.mem_toList.1 hf) m hm
        · exact hbelow f hf m hm

/-- The conditions of several fields can be evaluated when all filters can that are written
anywhere in them. -/
theorem conditions_isSome : (ps : List Pick) →
    (∀ q ∈ everyOf ps, ∀ f ∈ q.filter, ∀ n ∈ g.toList,
      (Filter.verdict g n (f.filled claims)).isSome) →
    ∀ f ∈ conditions ps, ∀ n ∈ g.toList, (Filter.verdict g n (f.filled claims)).isSome
  | [], _ => by simp [conditions]
  | p :: ps, h => by
      intro f hf
      rw [conditions, List.mem_append, Option.mem_toList] at hf
      rcases hf with hf | hf
      · exact condition_isSome p (fun q hq => h q (by simp [everyOf, hq])) f hf
      · exact conditions_isSome ps (fun q hq => h q (by simp [everyOf, hq])) f hf

end

/-- A field that sets no condition is an id, which every node has. -/
theorem answered_of_condition_eq_none {n : Node} (p : Pick) (h : p.condition = none) :
    p.Answered g claims n := by
  obtain ⟨name, filter, picks⟩ := p
  by_cases hplain : (picks.isEmpty && filter.isNone) = true
  · rw [condition_of_plain hplain] at h
    rw [Answered, if_pos hplain]
    by_cases hid : name = "id"
    · exact .inl hid
    · simp [hid] at h
  · rw [condition_of_asked hplain] at h
    simp at h

/-- Fields without any condition are answered by every node. -/
theorem allAnswered_of_conditions_eq_nil {n : Node} {ps : List Pick} (h : conditions ps = []) :
    AllAnswered g claims n ps := by
  induction ps with
  | nil => simp [AllAnswered]
  | cons p ps ih =>
      rw [conditions, List.append_eq_nil_iff] at h
      rw [AllAnswered]
      exact ⟨answered_of_condition_eq_none p (by simpa using h.1), ih h.2⟩

end Pick

/-! ### Templates -/

/-- A rule whose variables have claims is bound by filling them in. -/
theorem GraphRule.bind?_eq_filled {rule : GraphRule} {claims : Claims} (hclosed : rule.Closed)
    (hclaims : ∀ name ∈ rule.declared, claims.has name = true) :
    rule.bind? claims = some (rule.filter.map (Filter.filled claims)) := by
  rw [GraphRule.bind?, if_pos (List.all_eq_true.2 hclaims)]
  cases hfilter : rule.filter with
  | none => rfl
  | some f =>
      have hvariables : ∀ name ∈ f.occurrences, claims.has name = true :=
        fun name hname => hclaims name (hclosed f hfilter name hname)
      simp only [Filter.bind?_eq_filled f hvariables, Option.map_some]

namespace Template

variable {g : Graph} {claims : Claims} {n : Node} {t : Template}

/-- **A node for which the store says yes answers the template.** -/
theorem answered_of_accepts (hedges : g.LeadsOn t.everywhere) (hn : n ∈ g.toList)
    (h : Filter.acceptsIfAny g (t.lowered.map (Filter.filled claims)) n = .ok true) :
    t.Answered g claims n := by
  obtain ⟨hfilter, hpicks⟩ :=
    (Pick.inner_eq_true_iff ((Filter.verdict_reading g n).filled claims)).1
      (Filter.acceptsIfAny_filled.1 h)
  exact ⟨Filter.acceptsIfAny_filled.2 hfilter,
    Pick.allAnswered_of_conditions t.picks hedges n hn hpicks⟩

/-- **The store does not say no of a node that answers the template.** -/
theorem accepts_of_answered (hanswered : t.Answered g claims n) {b : Bool}
    (h : Filter.acceptsIfAny g (t.lowered.map (Filter.filled claims)) n = .ok b) : b = true := by
  obtain ⟨hfilter, hpicks⟩ := hanswered
  have hmeets := (Pick.inner_eq_true_iff ((Filter.meets_reading g n).filled claims)).2
    ⟨fun f hf => congrArg some
      (Filter.meets_of_verdict (Filter.acceptsIfAny_filled.1 hfilter f hf)),
    fun f hf => congrArg some (Pick.meets_of_allAnswered t.picks n hpicks f hf)⟩
  cases hlowered : t.lowered with
  | none =>
      rw [hlowered] at h
      exact (Except.ok.inj h).symm
  | some f =>
      rw [hlowered] at h
      rw [← Filter.meets_of_accepts _ n b h]
      exact Option.some.inj (hmeets f hlowered)

/-- The lowered template can be evaluated on a stored node when each filter in the template can. -/
theorem accepts_of_evaluates (heval : t.Evaluates g claims) (hn : n ∈ g.toList) :
    ∃ b, Filter.acceptsIfAny g (t.lowered.map (Filter.filled claims)) n = .ok b := by
  have hsome : ∀ f ∈ t.filters, ∀ m ∈ g.toList, (Filter.verdict g m (f.filled claims)).isSome := by
    intro f hf m hm
    obtain ⟨b, hb⟩ := exists_of_isOk (heval f hf m hm)
    rw [Filter.verdict_eq_some_iff.2 hb, Option.isSome_some]
  have hpicks := Pick.conditions_isSome t.picks fun p hp f hf =>
    hsome f (List.mem_append_right _ (List.mem_flatMap.2 ⟨p, hp, Option.mem_toList.2 hf⟩))
  have hparts : ∀ f ∈ t.filter.toList ++ Pick.conditions t.picks,
      (Filter.verdict g n (f.filled claims)).isSome := by
    intro f hf
    rcases List.mem_append.1 hf with hf | hf
    · exact hsome f (List.mem_append_left _ hf) n hn
    · exact hpicks f hf n hn
  have hlowered := ((Filter.verdict_reading g n).filled claims).conjunction?_isSome hparts
  cases hfilter : t.lowered with
  | none => exact ⟨true, rfl⟩
  | some f =>
      obtain ⟨b, hb⟩ := Option.isSome_iff_exists.1 (hlowered f hfilter)
      exact ⟨b, Filter.verdict_eq_some_iff.1 hb⟩

/-- A template that is lowered to no filter is answered by every node. -/
theorem answered_of_lowered_eq_none (h : t.lowered = none) (g : Graph) (claims : Claims)
    (n : Node) : t.Answered g claims n := by
  have hnil : t.filter.toList ++ Pick.conditions t.picks = [] := by
    unfold lowered Filter.conjunction? at h
    split at h
    · assumption
    · simp at h
  obtain ⟨hfilter, hpicks⟩ := List.append_eq_nil_iff.1 hnil
  have hnone : t.filter = none := by simpa using hfilter
  exact ⟨by rw [hnone]; rfl, Pick.allAnswered_of_conditions_eq_nil hpicks⟩

end Template

namespace Rule

/-- **Lowering keeps cascade semantics.**  A rule that a text writes can be bound to claims that
hold its variables, and where the store evaluates what comes out, it says yes of exactly the nodes
that answer the rule's template.  It does evaluate it when it can evaluate the filters that are
written in the template; and when lowering gives no filter, every node answers. -/
theorem lowered_keeps_cascade {s : String} {rule : GraphRule}
    (hrule : ofText s = .ok (.graph rule)) {claims : Claims}
    (hclaims : ∀ name ∈ rule.declared, claims.has name = true) {g : Graph}
    (hedges : g.LeadsOn rule.template.everywhere) :
    ∃ filter, rule.bind? claims = some filter ∧
      (∀ n ∈ g.toList, ∀ b, Filter.acceptsIfAny g filter n = .ok b →
        (b = true ↔ rule.template.Answered g claims n)) ∧
      (rule.template.Evaluates g claims →
        ∀ n ∈ g.toList, ∃ b, Filter.acceptsIfAny g filter n = .ok b) ∧
      (rule.filter = none → filter = none ∧
        ∀ (g : Graph) (claims : Claims) (n : Node), rule.template.Answered g claims n) := by
  have hclosed : rule.Closed := formed_of_ofText hrule _ .self
  refine ⟨_, GraphRule.bind?_eq_filled hclosed hclaims, ?_, ?_, ?_⟩
  · rintro n hn b hb
    refine ⟨?_, fun hanswered => Template.accepts_of_answered hanswered hb⟩
    rintro rfl
    exact Template.answered_of_accepts hedges hn hb
  · exact fun heval n hn => Template.accepts_of_evaluates heval hn
  · exact fun hnone => ⟨by rw [hnone]; rfl, Template.answered_of_lowered_eq_none hnone⟩

/-- Tasks that are due and have an owner who is the user and is on a team. -/
def dueOfUser : String :=
  "query($U: ID) \x7b queryTask \x7b id due " ++
    "owner(filter: \x7b name: \x7b eq: $U \x7d \x7d) \x7b team \x7b id \x7d \x7d \x7d \x7d"

def tasks : Graph := .ofList [
  ⟨"g1", "Team", [], .empty⟩,
  ⟨"t1", "Task", [], .ofList [("due", .scalar (.int 1)), ("owner", .edges ["u1"])]⟩,
  ⟨"t2", "Task", [], .ofList [("due", .scalar (.int 1)), ("owner", .edges ["u2", "u3"])]⟩,
  ⟨"u1", "User", [], .ofList [("name", .scalar (.text "amit")), ("team", .edges ["g1"])]⟩,
  ⟨"u2", "User", [], .ofList [("name", .scalar (.text "amit")), ("team", .edges ["g2"])]⟩,
  ⟨"u3", "User", [], .ofList [("name", .scalar (.text "bina")), ("team", .edges ["g1"])]⟩]

def ofAmit : Claims :=
  Claims.none.claiming "U" (.text "amit")

/-- The second task has an owner of the name and an owner with a team, but these are two, and the
team of the first is not stored. -/
theorem lowered_keeps_cascade_tasks :
    ∃ rule, ofText dueOfUser = .ok (.graph rule) ∧ rule.template.Evaluates tasks ofAmit ∧
      ∀ n ∈ tasks.toList, n.typeName = "Task" →
        (rule.template.Answered tasks ofAmit n ↔ n.id = "t1") := by
  have hcheck : (match ofText dueOfUser with
      | .ok (.graph rule) =>
        rule.declared.all ofAmit.has &&
          decide (tasks.LeadsOn rule.template.everywhere ∧ rule.template.Evaluates tasks ofAmit) &&
          tasks.toList.all fun n => n.typeName ≠ "Task" || (rule.bind? ofAmit).all fun filter =>
            (Filter.acceptsIfAny tasks filter n).toOption = some (n.id == "t1")
      | _ => false) = true := by decide +kernel
  cases hrule : ofText dueOfUser with
  | error flaw => simp [hrule] at hcheck
  | ok rule =>
      cases rule with
      | role role => simp [hrule] at hcheck
      | combine op rules => simp [hrule] at hcheck
      | graph rule =>
          simp only [hrule, Bool.and_eq_true, List.all_eq_true, decide_eq_true_eq] at hcheck
          obtain ⟨⟨hclaims, hedges, heval⟩, hnodes⟩ := hcheck
          obtain ⟨filter, hfilter, hkept, _⟩ := lowered_keeps_cascade hrule hclaims hedges
          refine ⟨rule, rfl, heval, fun n hn htask => ?_⟩
          have haccepts := hnodes n hn
          simp only [htask, hfilter, Option.all_some, ne_eq, not_true_eq_false, decide_false,
            Bool.false_or, decide_eq_true_eq, toOption_eq_some_iff] at haccepts
          rw [← hkept n hn _ haccepts, beq_iff_eq]

end Rule

end GraphWarden
