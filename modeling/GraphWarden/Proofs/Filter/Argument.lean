import GraphWarden.Proofs.Filter.Negation

/-!
# What a filter argument means

A filter argument is an object, and a node meets it when each of its keys holds of the node
(`Filter.holds`).  Objects that set no condition are left out (`Filter.isIdle`): inside `and`,
`or` and `not` only the others are asked.

Reading an argument takes conjunctions and disjunctions apart, drops repeats and unwraps single
parts while it goes.  None of this loses or adds a condition: **the filter accepts exactly the
nodes of which every key holds, and there is no filter exactly when no key imposes a condition**
(`accepts_ofArgument`).

Only a comparison can fail, so a store answers wherever the comparisons of a filter can be made
(`verdict_isSome_of_sure`).
-/

namespace GraphWarden

/-! ### Comparisons -/

section Comparison

variable {op : Comparison} {operand : Value}

/-- Every comparison but matching can be made, whatever is stored. -/
theorem Comparison.exists_holds (hop : op ≠ .matching) (stored : Value) :
    ∃ b, op.holds operand stored = .ok b := by
  cases op with
  | matching => exact absurd rfl hop
  | oneOf => cases operand <;> exact ⟨_, rfl⟩
  | equal | below | atMost | above | atLeast => exact ⟨_, rfl⟩

mutual

/-- Only the comparison with a pattern can fail. -/
theorem Comparison.exists_holdsIn (hop : op ≠ .matching) : (stored : Value) →
    ∃ b, op.holdsIn operand stored = .ok b
  | .list items => exists_holdsInAny hop items
  | .variable _ | .int _ | .float _ | .text _ | .flag _ | .null | .enum _ | .object _ =>
      exists_holds hop _

/-- A comparison that can be decided of every item of a stored list can be decided of the list. -/
theorem Comparison.exists_holdsInAny (hop : op ≠ .matching) : (items : List Value) →
    ∃ b, op.holdsInAny operand items = .ok b
  | [] => ⟨false, rfl⟩
  | v :: vs => by
      obtain ⟨b, hb⟩ := exists_holdsIn hop v
      obtain ⟨c, hc⟩ := exists_holdsInAny hop vs
      rw [holdsInAny, hb]
      cases b with
      | true => exact ⟨true, rfl⟩
      | false => exact ⟨c, hc⟩

end

end Comparison

namespace Filter

/-! ### Meaning -/

/-- Whether an argument is a filter object that sets no condition. -/
def isIdle (arg : Value) : Bool :=
  match ofArgument arg with
  | .ok filter => filter.isNone
  | .error _ => false

/-- The objects that a joining key is given: one, or those of a list. -/
def objectsOf : Value → List Value
  | .list items => items
  | arg => [arg]

/-- Whether a key imposes a condition with its argument.  A joining key does when one of its
objects does, `has` when it lists a field, `id` and the name of a field always. -/
def imposes (key : String) (arg : Value) : Bool :=
  match Key.ofName key with
  | .all | .any => (objectsOf arg).any fun child => !isIdle child
  | .not => !isIdle arg
  | .has => !(listed arg).isEmpty
  | .id | .field => true

/-- Whether what a field of the node stores compares with an operand under the operator of this
name.  Where nothing or edges are stored nothing compares. -/
def operatorHolds (n : Node) (field operator : String) (operand : Value) : Bool :=
  match Comparison.ofName? operator, n.fields.find? field with
  | some op, some (.scalar stored) => (op.holdsIn operand stored).toOption.getD false
  | _, _ => false

/-- Whether each operator that a field is given holds of the node. -/
def operatorsHold (n : Node) (field : String) : Value → Bool
  | .object operators => operators.all fun e => operatorHolds n field e.1 e.2
  | _ => false

mutual

/-- Whether every key of an object holds of the node: `and` when all its answers are yes, `or` when
there is none or some answer is yes, `not` when its answer, if there is one, is no; `has` when every
listed field is present, `id` when the node's id is listed, and the name of a field when each of its
operators holds. -/
def holds (g : Graph) (n : Node) : List (String × Value) → Bool
  | [] => true
  | (key, arg) :: rest =>
    (match Key.ofName key with
      | .all => (answers g n arg).all id
      | .any => (answers g n arg).isEmpty || (answers g n arg).any id
      | .not => (answers g n arg).all Bool.not
      | .has => (listed arg).all fun field => g.hasField n field
      | .id => (listed arg).contains n.id
      | .field => operatorsHold n key arg) && holds g n rest

/-- The answers of the objects of a joining key, whether each holds of the node; those that set no
condition give none. -/
def answers (g : Graph) (n : Node) : Value → List Bool
  | .list items => answersOf g n items
  | .object entries => if isIdle (.object entries) then [] else [holds g n entries]
  | _ => []

def answersOf (g : Graph) (n : Node) : List Value → List Bool
  | [] => []
  | v :: vs => answers g n v ++ answersOf g n vs

end

mutual

/-- The comparisons that a filter makes on a node, and behind its edges, can be made.  A comparison
fails only when its operand is not a pattern that it could look for. -/
def Sure (g : Graph) : Filter → Node → Prop
  | .compare field op operand, n =>
    ∀ stored, n.fields.find? field = some (.scalar stored) →
      ∃ b, op.holdsIn operand stored = .ok b
  | .edge field inner, n => ∀ m ∈ g.behind n field, Sure g inner m
  | .all parts, n | .any parts, n => AllSure g parts n
  | .not inner, n => Sure g inner n
  | .nothing, _ | .has _, _ | .ids _, _ | .isType _, _ => True

def AllSure (g : Graph) : List Filter → Node → Prop
  | [], _ => True
  | f :: fs, n => Sure g f n ∧ AllSure g fs n

end

variable {g : Graph} {n : Node} {fs : List Filter}

/-! ### Stores answer -/

mutual

/-- **A store fails only at a comparison.**  So a filter whose comparisons are sure on a node and
on those behind its edges has a verdict there. -/
theorem verdict_isSome_of_sure : (f : Filter) → (n : Node) → f.Sure g n → (verdict g n f).isSome
  | .nothing, _, _ | .has _, _, _ | .ids _, _, _ | .isType _, _, _ => rfl
  | .compare field op operand, n, h => by
      rw [verdict, accepts]
      cases hstored : n.fields.find? field with
      | none => rfl
      | some value =>
          cases value with
          | scalar stored =>
              obtain ⟨b, hb⟩ := h stored hstored
              simp only [hb]
              rfl
          | edges targets => rfl
  | .edge field inner, n, h => by
      have hbehind : ∀ m ∈ g.behind n field, (inner.accepts g m).isOk = true := by
        intro m hm
        obtain ⟨b, hb⟩ := Option.isSome_iff_exists.1 (verdict_isSome_of_sure inner m (h m hm))
        rw [verdict_eq_some_iff.1 hb]
        rfl
      obtain ⟨b, hb⟩ := anyM_isOk hbehind
      rw [verdict, accepts, hb]
      rfl
  | .all parts, n, h => by
      rw [(verdict_reading g n).all]
      exact inTurn_isSome (verdict_isSome_of_allSure parts n h)
  | .any parts, n, h => by
      rw [(verdict_reading g n).any]
      exact inTurn_isSome (verdict_isSome_of_allSure parts n h)
  | .not inner, n, h => by
      rw [(verdict_reading g n).not, Option.isSome_map]
      exact verdict_isSome_of_sure inner n h

/-- Filters whose comparisons can all be made are answered, each of them. -/
theorem verdict_isSome_of_allSure : (fs : List Filter) → (n : Node) → AllSure g fs n →
    ∀ f ∈ fs, (verdict g n f).isSome
  | [], _, _ => by simp
  | f :: fs, n, h =>
      List.forall_mem_cons.2 ⟨verdict_isSome_of_sure f n h.1, verdict_isSome_of_allSure fs n h.2⟩

end

/-! ### Joining -/

/-- Plain truth of a conjunction is plain truth of the filters that were put together. -/
theorem meets_andAll (fs : List Filter) :
    (andAll fs).meets g n = fs.all fun f => f.meets g n :=
  Option.some.inj ((meets_reading g n).andAll (inTurn_some _ fs).1)

/-- A disjunction that was put together is met when one of its parts is. -/
theorem meets_orAll (fs : List Filter) :
    (orAll fs).meets g n = fs.any fun f => f.meets g n := by
  have hread := (meets_reading g n).orAll fs
  rw [(inTurn_some _ fs).2] at hread
  exact Option.some.inj hread

/-- Filters under `and` say together that each of them holds; when there are none, nothing is
asked. -/
theorem all_meets_group_andAll (fs : List Filter) :
    ((group andAll fs).all fun f => f.meets g n) = (fs.map fun f => f.meets g n).all id := by
  cases fs with
  | nil => rfl
  | cons f fs => simp [group, meets_andAll]

/-- Filters under `or` say together that one of them holds.  When there are none nothing is asked
either, which is not what an empty disjunction says. -/
theorem all_meets_group_orAll (fs : List Filter) :
    ((group orAll fs).all fun f => f.meets g n) =
      ((fs.map fun f => f.meets g n).isEmpty || (fs.map fun f => f.meets g n).any id) := by
  cases fs with
  | nil => rfl
  | cons f fs => simp [group, meets_orAll]

/-! ### What is read of a key -/

section Keys

variable {key : String} {arg : Value} {entries : List (String × Value)}

/-- An object is idle when nothing is read of it. -/
theorem isIdle_object (h : conditionsOf entries = .ok fs) :
    isIdle (.object entries) = fs.isEmpty := by
  rw [isIdle, ofArgument, h]
  cases fs <;> rfl

/-- A comparison holds of a node when its operator does, under the name by which the operator is
written. -/
theorem meets_compare {op : Comparison} {field operator : String} {operand : Value}
    (hop : Comparison.ofName? operator = some op) :
    (Filter.compare field op operand).meets g n = operatorHolds n field operator operand := by
  rw [meets, operatorHolds, hop]
  cases n.fields.find? field with
  | none => rfl
  | some value => cases value <;> rfl

/-- A field asks for a comparison with each of its operators, and has at least one. -/
theorem all_meets_comparisons {field : String} (h : comparisons field arg = .ok fs) :
    fs ≠ [] ∧ ∀ (g : Graph) (n : Node),
      (fs.all fun f => f.meets g n) = operatorsHold n field arg := by
  obtain ⟨operators, rfl, hne, hcompare⟩ := comparisons_cases h
  constructor
  · rintro rfl
    exact hne (List.forall₂_nil_right_iff.1 hcompare)
  · intro g n
    rw [operatorsHold]
    clear h hne
    induction hcompare with
    | nil => rfl
    | cons hfirst _ ih =>
        obtain ⟨op, hop, rfl⟩ := hfirst
        rw [List.all_cons, List.all_cons, meets_compare hop, ih]

end Keys

/-! ### Conditions -/

/-- No filter is read of objects that are all idle, and of no others. -/
theorem children_eq_nil_iff {key : String} {arg : Value} (h : children key arg = .ok fs) :
    fs = [] ↔ ∀ child ∈ objectsOf arg, isIdle child = true := by
  rcases children_cases h with ⟨items, rfl, hitems⟩ | ⟨entries, parts, rfl, hparts, rfl⟩
  · clear h
    rw [objectsOf]
    induction items generalizing fs with
    | nil =>
        cases hitems
        simp
    | cons v vs ih =>
        obtain ⟨entries, parts, others, rfl, hparts, hothers, rfl⟩ := childrenOf_cons_cases hitems
        rw [List.append_eq_nil_iff, Option.toList_eq_nil_iff, conjunction?_eq_none_iff, ih hothers,
          List.forall_mem_cons, isIdle_object hparts, List.isEmpty_iff]
  · simp [objectsOf, isIdle_object hparts, conjunction?_eq_none_iff]

/-- **An object sets no condition exactly when none of its keys imposes one.** -/
theorem conditionsOf_eq_nil_iff {entries : List (String × Value)}
    (h : conditionsOf entries = .ok fs) :
    fs = [] ↔ ∀ e ∈ entries, imposes e.1 e.2 = false := by
  induction entries generalizing fs with
  | nil =>
      cases h
      simp
  | cons e rest ih =>
      obtain ⟨key, arg⟩ := e
      obtain ⟨here, others, rfl, hothers, hcases⟩ := conditionsOf_cons_cases h
      have hhere : here = [] ↔ imposes key arg = false := by
        rcases hcases with ⟨hkey, parts, hparts, rfl⟩ | ⟨hkey, parts, hparts, rfl⟩ |
          ⟨hkey, entries, parts, rfl, hparts, rfl⟩ | ⟨hkey, hhas⟩ | ⟨hkey, hid⟩ | ⟨hkey, hfield⟩
        · simp [imposes, hkey, group_eq_nil_iff, children_eq_nil_iff hparts]
        · simp [imposes, hkey, group_eq_nil_iff, children_eq_nil_iff hparts]
        · simp [imposes, hkey, conjunction?_eq_none_iff, isIdle_object hparts]
        · simp [imposes, hkey, presence_eq hhas]
        · simp [imposes, hkey, identity_eq hid]
        · simp [imposes, hkey, (all_meets_comparisons hfield).1]
      rw [List.append_eq_nil_iff, hhere, ih hothers, List.forall_mem_cons]

/-- The answer of an object, from what its keys ask for. -/
theorem map_meets_conjunction? {entries : List (String × Value)}
    (hparts : conditionsOf entries = .ok fs)
    (hmeets : (fs.all fun f => f.meets g n) = holds g n entries) :
    (conjunction? fs).toList.map (fun f => f.meets g n) = answers g n (.object entries) := by
  rw [answers, isIdle_object hparts]
  cases fs with
  | nil => rfl
  | cons f fs => simp [conjunction?, meets_andAll, hmeets]

mutual

/-- What is nested is read as filters that hold when it does, item by item and without the idle
ones. -/
theorem map_meets_children {key : String} : (arg : Value) → (fs : List Filter) →
    children key arg = .ok fs → fs.map (fun f => f.meets g n) = answers g n arg
  | .list items, fs, h => by
      rw [children] at h
      rw [answers]
      exact map_meets_childrenOf items fs h
  | .object entries, fs, h => by
      rw [children] at h
      obtain ⟨parts, hparts, rfl⟩ := exists_of_map_eq_ok h
      exact map_meets_conjunction? hparts (all_meets_conditionsOf entries parts hparts)
  | .variable _, fs, h | .int _, fs, h | .float _, fs, h | .text _, fs, h | .flag _, fs, h
  | .null, fs, h | .enum _, fs, h => by
      simp [children] at h

/-- The items of a list, one after the other. -/
theorem map_meets_childrenOf : (vs : List Value) → (fs : List Filter) →
    childrenOf vs = .ok fs → fs.map (fun f => f.meets g n) = answersOf g n vs
  | [], fs, h => by
      rw [childrenOf] at h
      cases h
      rfl
  | .object entries :: vs, fs, h => by
      rw [childrenOf] at h
      obtain ⟨parts, hparts, h⟩ := exists_of_bind_eq_ok h
      obtain ⟨others, hothers, h⟩ := exists_of_bind_eq_ok h
      cases h
      rw [List.map_append, answersOf, map_meets_childrenOf vs others hothers,
        map_meets_conjunction? hparts (all_meets_conditionsOf entries parts hparts)]
  | .list _ :: vs, fs, h | .variable _ :: vs, fs, h | .int _ :: vs, fs, h
  | .float _ :: vs, fs, h | .text _ :: vs, fs, h | .flag _ :: vs, fs, h | .null :: vs, fs, h
  | .enum _ :: vs, fs, h => by
      simp [childrenOf] at h

/-- **The filters that are read of an object are met by the nodes of which its keys hold.**  By
recursion over the entries, and into the objects that the keys `and`, `or` and `not` hold. -/
theorem all_meets_conditionsOf : (entries : List (String × Value)) → (fs : List Filter) →
    conditionsOf entries = .ok fs → (fs.all fun f => f.meets g n) = holds g n entries
  | [], fs, h => by
      rw [conditionsOf] at h
      cases h
      rfl
  | (key, arg) :: rest, fs, h => by
      obtain ⟨here, others, rfl, hothers, hcases⟩ := conditionsOf_cons_cases h
      rw [List.all_append, all_meets_conditionsOf rest others hothers, holds]
      congr 1
      -- One case for each reading of the key.
      rcases hcases with ⟨hkey, parts, hparts, rfl⟩ | ⟨hkey, parts, hparts, rfl⟩ |
        ⟨hkey, entries, parts, rfl, hparts, rfl⟩ | ⟨hkey, hhas⟩ | ⟨hkey, hid⟩ | ⟨hkey, hfield⟩
      · simp only [hkey]
        rw [all_meets_group_andAll, map_meets_children arg parts hparts]
      · simp only [hkey]
        rw [all_meets_group_orAll, map_meets_children arg parts hparts]
      · have hinner := map_meets_conjunction? hparts (all_meets_conditionsOf entries parts hparts)
        simp only [hkey, ← hinner, List.all_map]
        rfl
      · simp only [hkey]
        rw [presence_eq hhas, List.all_map]
        rfl
      · simp only [hkey]
        rw [identity_eq hid]
        simp [meets]
      · simp only [hkey]
        exact (all_meets_comparisons hfield).2 g n

end

/-- **A filter argument means what it says.**  There is no filter exactly when no key imposes a
condition; otherwise a store whose comparisons can be made accepts exactly the nodes of which every
key holds. -/
theorem accepts_ofArgument {entries : List (String × Value)} {filter : Option Filter}
    (h : ofArgument (.object entries) = .ok filter) :
    (filter = none ↔ ∀ e ∈ entries, imposes e.1 e.2 = false) ∧
      ∀ f, filter = some f → ∀ (g : Graph) (n : Node), f.Sure g n →
        f.accepts g n = .ok (holds g n entries) := by
  rw [ofArgument] at h
  obtain ⟨parts, hparts, rfl⟩ := exists_of_map_eq_ok h
  constructor
  · rw [← conditionsOf_eq_nil_iff hparts, ← conjunction?_eq_none_iff]
  · intro f hf g n hsure
    -- Truth was computed along the reading, the answer is asked of the whole filter only: a store
    -- need not come to every part that was read.
    obtain ⟨b, hb⟩ := Option.isSome_iff_exists.1 (verdict_isSome_of_sure f n hsure)
    have hmeets : f.meets g n = holds g n entries := by
      cases parts with
      | nil => cases hf
      | cons part parts =>
          obtain rfl := Option.some.inj hf
          rw [meets_andAll, all_meets_conditionsOf entries _ hparts]
    rw [verdict_eq_some_iff.1 hb, ← meets_of_verdict hb, hmeets]

/-- A plan of some rank. -/
def plan : Node :=
  { id := "n1", typeName := "Note",
    fields := Keyed.ofList [("rank", .scalar (.int 3)), ("title", .scalar (.text "plan"))] }

/-- What is planned or urgent, is not the second note and has a rank from 2 to 4.  Two objects set
no condition, and the last `or` has no other. -/
def wanted : List (String × Value) :=
  [("and", .list [.object [],
      .object [("or", .list [.object [("title", .object [("eq", .text "plan")])],
        .object [("title", .object [("eq", .text "urgent")])]])]]),
    ("has", .list [.text "rank"]),
    ("not", .object [("id", .list [.text "n2"])]),
    ("or", .object [("and", .list [])]),
    ("rank", .object [("ge", .int 2), ("lt", .int 5)])]

/-- The filter that is read. -/
def asked : Filter :=
  .all [.any [.equals "title" (.text "plan"), .equals "title" (.text "urgent")], .has "rank",
    .not (.ids ["n2"]), .compare "rank" .atLeast (.int 2), .compare "rank" .below (.int 5)]

/-- The plan is wanted.  The objects that set no condition have left no trace in the filter that is
read, all of its comparisons can be made, and the store accepts the plan. -/
theorem plan_wanted : ofArgument (.object wanted) = .ok (some asked) ∧
    asked.Sure (Graph.ofList [plan]) plan ∧ asked.accepts (Graph.ofList [plan]) plan = .ok true := by
  have hread : ofArgument (.object wanted) = .ok (some asked) := rfl
  have hsure : asked.Sure (Graph.ofList [plan]) plan := by
    simp only [asked, equals, Sure, AllSure, true_and, and_true]
    refine ⟨⟨?_, ?_⟩, ?_, ?_⟩
    all_goals
      intro stored _
      exact Comparison.exists_holdsIn (by decide) stored
  have hholds : holds (Graph.ofList [plan]) plan wanted = true := rfl
  have haccepts := (accepts_ofArgument hread).2 asked rfl _ _ hsure
  exact ⟨hread, hsure, hholds ▸ haccepts⟩

end Filter

end GraphWarden
