import GraphWarden.Explain
import GraphWarden.Proofs.Json.Paths
import GraphWarden.Proofs.Json.Pretty

/-!
# What tagged forms tell

A value, a filter or an outcome is shown in a form that says of which kind it is.  The form tells
everything but the sign of an infinite number, which has no text of its own: what is told is the
thing with one infinite number in place of both (`told`), and **two things have one tagged form
exactly when the same is told of them** (`Visibility.tagged_eq_iff`).

No tagged form has an infinite number in it (`bounded_tagged`), whatever is shown.  So a report has
a text that tells it, and with it the outcome it was made of (`Explain.text_report_eq_iff`).
-/

namespace GraphWarden

/-! ### Records and tags -/

namespace Json

/-- A tagged form tells its tag and what stands under it. -/
@[simp] theorem tag_inj {name name' : String} {j j' : Json} :
    tag name j = tag name' j' ↔ name = name' ∧ j = j' := by
  simp [tag]

@[simp] theorem text_ne_tag (s name : String) (j : Json) : text s ≠ tag name j := by
  simp [tag]

@[simp] theorem tag_ne_text (s name : String) (j : Json) : tag name j ≠ text s := by
  simp [tag]

@[simp] theorem texts_inj {ss ts : List String} : texts ss = texts ts ↔ ss = ts := by
  simp [texts, List.map_inj_right (f := Json.text) (by simp)]

/-- A record holds what its last entry with the key holds. -/
theorem child?_record (key : String) (entries : List (String × Option Json)) :
    (record entries).child? key =
      Entries.find? key (entries.filterMap fun e => e.2.map fun j => (e.1, j)).reverse := by
  rw [record, child?, Entries.find?_reverse_of_rising (Entries.ofList_rising _),
    Entries.find?_ofList]

@[simp] theorem bounded_null : Json.null.Bounded :=
  trivial

@[simp] theorem bounded_text (s : String) : (text s).Bounded :=
  trivial

@[simp] theorem bounded_int (i : Int) : (int i).Bounded :=
  trivial

/-- A record has the leaves of what it holds. -/
theorem bounded_record {entries : List (String × Option Json)}
    (h : ∀ e ∈ entries, ∀ j, e.2 = some j → j.Bounded) : (record entries).Bounded := by
  refine leavesEntries_iff.2 fun e he => ?_
  obtain ⟨e', he', hshown⟩ := List.mem_filterMap.1 (Entries.mem_of_mem_ofList he)
  obtain ⟨j, hj, rfl⟩ := Option.map_eq_some_iff.1 hshown
  exact h e' he' j hj

/-- A tag puts no infinite number on top of what it holds. -/
theorem bounded_tag {name : String} {j : Json} (h : j.Bounded) : (tag name j).Bounded :=
  ⟨h, trivial⟩

@[simp] theorem bounded_texts (ss : List String) : (texts ss).Bounded := by
  refine leavesItems_iff.2 fun j hj => ?_
  obtain ⟨s, _, rfl⟩ := List.mem_map.1 hj
  exact trivial

/-- A list that is left out when it is empty has the leaves of its items. -/
theorem bounded_of_unlessEmpty {items : List Json} {j : Json} (h : ∀ item ∈ items, item.Bounded)
    (hj : unlessEmpty items = some j) : j.Bounded := by
  unfold unlessEmpty at hj
  split at hj
  · cases hj
  · cases hj
    exact leavesItems_iff.2 h

end Json

/-! ### Values -/

/-- What is told of a number: the number itself, or that it is infinite. -/
def Binary64.told (x : Binary64) : Binary64 :=
  if x.isFinite then x else ofRank false infinityRank

namespace Value

/-- How a number is shown inside its tag. -/
theorem shown_eq_iff {x y : Binary64} :
    (if x.isFinite then Json.float x else .null) = (if y.isFinite then Json.float y else .null) ↔
      x.told = y.told := by
  have hinfinite : (Binary64.ofRank false Binary64.infinityRank).isFinite = false := by
    decide +kernel
  unfold Binary64.told
  cases hx : x.isFinite with
  | true =>
      cases hy : y.isFinite with
      | true => simp
      | false =>
          refine ⟨fun h => (by simp at h), fun h => ?_⟩
          simp only [if_true, Bool.false_eq_true, if_false] at h
          rw [h, hinfinite] at hx
          cases hx
  | false =>
      cases hy : y.isFinite with
      | true =>
          refine ⟨fun h => (by simp at h), fun h => ?_⟩
          simp only [if_true, Bool.false_eq_true, if_false] at h
          rw [← h, hinfinite] at hy
          cases hy
      | false => simp

mutual

/-- What the tagged form of a value tells. -/
def told : Value → Value
  | .float x => .float x.told
  | .list items => .list (toldItems items)
  | .object entries => .object (toldEntries entries)
  | .variable name => .variable name
  | .int i => .int i
  | .text s => .text s
  | .flag b => .flag b
  | .null => .null
  | .enum name => .enum name

def toldItems : List Value → List Value
  | [] => []
  | v :: vs => told v :: toldItems vs

def toldEntries : List (String × Value) → List (String × Value)
  | [] => []
  | (k, v) :: es => (k, told v) :: toldEntries es

end

mutual

/-- A form tells everything but the sign of infinite numbers.  The tag says of which kind the
other value is, and the proof goes on with what the two hold. -/
theorem tagged_eq_iff : (v w : Value) → (v.tagged = w.tagged ↔ v.told = w.told)
  | .float x, w => by
      cases w with
      | float y => simp [tagged, told, shown_eq_iff]
      | _ => simp [tagged, told]
  | .list items, w => by
      cases w with
      | list items' => simp [tagged, told, taggedItems_eq_iff items items']
      | _ => simp [tagged, told]
  | .object entries, w => by
      cases w with
      | object entries' => simp [tagged, told, taggedEntries_eq_iff entries entries']
      | _ => simp [tagged, told]
  | .variable _, w | .int _, w | .text _, w | .flag _, w | .null, w | .enum _, w => by
      cases w <;> simp [tagged, told]

/-- Items have one tagged form exactly when the same is told of each of them. -/
theorem taggedItems_eq_iff : (vs ws : List Value) →
    (taggedItems vs = taggedItems ws ↔ toldItems vs = toldItems ws)
  | [], [] => by simp
  | [], _ :: _ => by simp [taggedItems, toldItems]
  | _ :: _, [] => by simp [taggedItems, toldItems]
  | v :: vs, w :: ws => by
      simp [taggedItems, toldItems, tagged_eq_iff v w, taggedItems_eq_iff vs ws]

/-- Entries have one tagged form exactly when their names are the same and the same is told of what
they hold. -/
theorem taggedEntries_eq_iff : (es fs : List (String × Value)) →
    (taggedEntries es = taggedEntries fs ↔ toldEntries es = toldEntries fs)
  | [], [] => by simp
  | [], _ :: _ => by simp [taggedEntries, toldEntries]
  | _ :: _, [] => by simp [taggedEntries, toldEntries]
  | (k, v) :: es, (l, w) :: fs => by
      simp [taggedEntries, toldEntries, tagged_eq_iff v w, taggedEntries_eq_iff es fs]

end

mutual

/-- An infinite number is shown as null inside its tag. -/
theorem bounded_tagged : (v : Value) → v.tagged.Bounded
  | .float x => by
      refine Json.bounded_tag ?_
      split
      · next hfinite => exact hfinite
      · exact trivial
  | .list items => Json.bounded_tag (bounded_taggedItems items)
  | .object entries => Json.bounded_tag (bounded_taggedEntries entries)
  | .variable _ | .int _ | .text _ | .flag _ | .enum _ => Json.bounded_tag trivial
  | .null => trivial

theorem bounded_taggedItems : (vs : List Value) → Json.LeavesItems Json.BoundedLeaf (taggedItems vs)
  | [] => trivial
  | v :: vs => ⟨bounded_tagged v, bounded_taggedItems vs⟩

theorem bounded_taggedEntries : (es : List (String × Value)) →
    Json.LeavesEntries Json.BoundedLeaf (taggedEntries es)
  | [] => trivial
  | (_, v) :: es => ⟨bounded_tagged v, bounded_taggedEntries es⟩

end

end Value

/-! ### Filters -/

namespace Filter

mutual

/-- What the tagged form of a filter tells. -/
def told : Filter → Filter
  | .compare field op operand => .compare field op operand.told
  | .edge field inner => .edge field (told inner)
  | .all parts => .all (toldParts parts)
  | .any parts => .any (toldParts parts)
  | .not inner => .not (told inner)
  | .nothing => .nothing
  | .has field => .has field
  | .ids listed => .ids listed
  | .isType name => .isType name

def toldParts : List Filter → List Filter
  | [] => []
  | f :: fs => told f :: toldParts fs

end

/-- Comparisons have different names. -/
theorem name_inj {op op' : Comparison} : op.name = op'.name ↔ op = op' := by
  refine ⟨fun h => ?_, congrArg _⟩
  have hread := congrArg Comparison.ofName? h
  rw [Comparison.ofName?_name, Comparison.ofName?_name] at hread
  exact Option.some.inj hread

/-- Records of comparisons, part by part. -/
theorem compared_inj {a b c a' b' c' : Json} :
    Json.record [("field", some a), ("op", some b), ("value", some c)] =
        Json.record [("field", some a'), ("op", some b'), ("value", some c')] ↔
      a = a' ∧ b = b' ∧ c = c' := by
  constructor
  · intro h
    have hfield := congrArg (Json.child? "field") h
    have hop := congrArg (Json.child? "op") h
    have hvalue := congrArg (Json.child? "value") h
    simp only [Json.child?_record] at hfield hop hvalue
    exact ⟨Option.some.inj hfield, Option.some.inj hop, Option.some.inj hvalue⟩
  · rintro ⟨rfl, rfl, rfl⟩
    rfl

/-- Records of edges, part by part. -/
theorem crossed_inj {a b a' b' : Json} :
    Json.record [("field", some a), ("filter", some b)] =
        Json.record [("field", some a'), ("filter", some b')] ↔ a = a' ∧ b = b' := by
  constructor
  · intro h
    have hfield := congrArg (Json.child? "field") h
    have hfilter := congrArg (Json.child? "filter") h
    simp only [Json.child?_record] at hfield hfilter
    exact ⟨Option.some.inj hfield, Option.some.inj hfilter⟩
  · rintro ⟨rfl, rfl⟩
    rfl

mutual

/-- Forms of filters tell as much as those of their operands do. -/
theorem tagged_eq_iff : (f g : Filter) → (f.tagged = g.tagged ↔ f.told = g.told)
  | .compare _ _ v, g => by
      cases g with
      | compare _ _ w => simp [tagged, told, compared_inj, name_inj, v.tagged_eq_iff w]
      | _ => simp [tagged, told]
  | .edge _ f, g => by
      cases g with
      | edge _ g => simp [tagged, told, crossed_inj, tagged_eq_iff f g]
      | _ => simp [tagged, told]
  | .all parts, g => by
      cases g with
      | all parts' => simp [tagged, told, taggedParts_eq_iff parts parts']
      | _ => simp [tagged, told]
  | .any parts, g => by
      cases g with
      | any parts' => simp [tagged, told, taggedParts_eq_iff parts parts']
      | _ => simp [tagged, told]
  | .not f, g => by
      cases g with
      | not g => simp [tagged, told, tagged_eq_iff f g]
      | _ => simp [tagged, told]
  | .nothing, g | .has _, g | .ids _, g | .isType _, g => by
      cases g <;> simp [tagged, told]

/-- Parts have one tagged form exactly when the same is told of each of them. -/
theorem taggedParts_eq_iff : (fs gs : List Filter) →
    (taggedParts fs = taggedParts gs ↔ toldParts fs = toldParts gs)
  | [], [] => by simp
  | [], _ :: _ => by simp [taggedParts, toldParts]
  | _ :: _, [] => by simp [taggedParts, toldParts]
  | f :: fs, g :: gs => by
      simp [taggedParts, toldParts, tagged_eq_iff f g, taggedParts_eq_iff fs gs]

end

mutual

/-- No filter has an infinite number in its tagged form.  Where a value would have one, its form
holds `null`. -/
theorem bounded_tagged : (f : Filter) → f.tagged.Bounded
  | .nothing => trivial
  | .has _ | .isType _ => Json.bounded_tag trivial
  | .ids listed => Json.bounded_tag (Json.bounded_texts listed)
  | .not inner => Json.bounded_tag (bounded_tagged inner)
  | .all parts | .any parts => Json.bounded_tag (bounded_taggedParts parts)
  | .compare _ _ operand =>
      Json.bounded_tag (Json.bounded_record (by simpa using operand.bounded_tagged))
  | .edge _ inner => Json.bounded_tag (Json.bounded_record (by simpa using bounded_tagged inner))

theorem bounded_taggedParts : (fs : List Filter) →
    Json.LeavesItems Json.BoundedLeaf (taggedParts fs)
  | [] => trivial
  | f :: fs => ⟨bounded_tagged f, bounded_taggedParts fs⟩

end

end Filter

/-! ### Rules -/

mutual

/-- A selected field has only texts and a filter in its tagged form. -/
theorem Pick.bounded_tagged : (p : Pick) → p.tagged.Bounded
  | .field name filter picks => by
      have hpicks : ∀ j, Json.unlessEmpty (Pick.taggedAll picks) = some j → j.Bounded := fun _ =>
        Json.bounded_of_unlessEmpty (Pick.bounded_taggedAll picks)
      exact Json.bounded_record (by simpa [Filter.bounded_tagged] using hpicks)

/-- Several selected fields have bounded tagged forms. -/
theorem Pick.bounded_taggedAll : (ps : List Pick) → ∀ j ∈ Pick.taggedAll ps, j.Bounded
  | [] => by simp [Pick.taggedAll]
  | p :: ps => List.forall_mem_cons.2 ⟨Pick.bounded_tagged p, Pick.bounded_taggedAll ps⟩

end

/-- A template is bounded, because what it selects is. -/
theorem Template.bounded_tagged (t : Template) : t.tagged.Bounded := by
  have hpicks : ∀ j, Json.unlessEmpty (Pick.taggedAll t.picks) = some j → j.Bounded := fun _ =>
    Json.bounded_of_unlessEmpty (Pick.bounded_taggedAll t.picks)
  exact Json.bounded_record (by simpa [Filter.bounded_tagged] using hpicks)

/-- What a role rule asks of a claim is bounded. -/
theorem RoleTest.bounded_tagged (test : RoleTest) : test.tagged.Bounded := by
  cases test with
  | equal literal => exact Json.bounded_tag literal.bounded_tagged
  | oneOf options =>
      refine Json.bounded_tag (Json.leavesItems_iff.2 fun j hj => ?_)
      obtain ⟨v, _, rfl⟩ := List.mem_map.1 hj
      exact v.bounded_tagged
  | matching pattern => exact Json.bounded_tag trivial

namespace Rule

mutual

/-- A rule is shown with its literals and filters, and no text of an infinite number. -/
theorem bounded_tagged : (r : Rule) → r.tagged.Bounded
  | .graph rule => by
      have htemplate := rule.template.bounded_tagged
      have hfilter : ((rule.filter.map Filter.tagged).getD .null).Bounded := by
        cases rule.filter with
        | none => exact trivial
        | some f => exact f.bounded_tagged
      exact Json.bounded_record (by simpa using ⟨htemplate, hfilter⟩)
  | .role rule => Json.bounded_record (by simpa using rule.test.bounded_tagged)
  | .combine _ rules => by
      have hrules : (Json.list (taggedAll rules)).Bounded := bounded_taggedAll rules
      exact Json.bounded_record (by simpa using hrules)

theorem bounded_taggedAll : (rs : List Rule) → Json.LeavesItems Json.BoundedLeaf (taggedAll rs)
  | [] => trivial
  | r :: rs => ⟨bounded_tagged r, bounded_taggedAll rs⟩

end

end Rule

/-! ### Outcomes -/

namespace Visibility

/-- What the tagged form of an outcome tells. -/
def told : Visibility → Visibility
  | .unrestricted => .unrestricted
  | .denied => .denied
  | .restricted f => .restricted f.told

/-- How each of the three outcomes is shown: by its name, and a restriction with the filter that
the visible nodes pass. -/
inductive Shown : Visibility → Json → Prop where
  | unrestricted : Shown .unrestricted (.object [("outcome", .text "unrestricted")])
  | denied : Shown .denied (.object [("outcome", .text "denied")])
  | restricted (f : Filter) : Shown (.restricted f)
      (.object [("filter", f.tagged), ("outcome", .text "restricted")])

/-- The tagged form of a restriction, its entries in key order. -/
theorem tagged_restricted (f : Filter) : (restricted f).tagged =
    .object [("filter", f.tagged), ("outcome", .text "restricted")] :=
  congrArg Json.object (if_pos (by decide : ("filter" : String) < "outcome"))

/-- The tagged form of an outcome is the form that the outcome is shown in. -/
theorem shown_tagged (v : Visibility) : v.Shown v.tagged := by
  cases v with
  | unrestricted => exact .unrestricted
  | denied => exact .denied
  | restricted f =>
      rw [tagged_restricted]
      exact .restricted f

/-- **Two outcomes have one tagged form exactly when the same is told of them.** -/
theorem tagged_eq_iff (v w : Visibility) : v.tagged = w.tagged ↔ v.told = w.told := by
  cases v with
  | restricted f =>
      cases w with
      | restricted g => simp [tagged_restricted, told, f.tagged_eq_iff g]
      | _ =>
          rw [tagged_restricted]
          simp [tagged, Json.tag, told]
  | _ =>
      cases w with
      | restricted g =>
          rw [tagged_restricted]
          simp [tagged, Json.tag, told]
      | _ => simp [tagged, told]

/-- An outcome is a text, or holds a filter, and so it is bounded. -/
theorem bounded_tagged (v : Visibility) : v.tagged.Bounded := by
  cases v with
  | restricted f => exact Json.bounded_record (by simpa using f.bounded_tagged)
  | _ => exact Json.bounded_tag trivial

end Visibility

/-! ### Reports -/

namespace Explain

variable {s : Schema} {typeName : String} {op : Operation}

/-- The report holds the outcome. -/
theorem child?_report (s : Schema) (typeName : String) (op : Operation) (v : Visibility) :
    (report s typeName op v).child? "outcome" = some v.tagged := by
  rw [report, Json.child?_record]
  rfl

/-- A report is bounded, whatever rule and outcome it is about. -/
theorem bounded_report (v : Visibility) : (report s typeName op v).Bounded := by
  have hrule : (((s.governingRule? typeName op).map Rule.tagged).getD .null).Bounded := by
    cases s.governingRule? typeName op with
    | none => exact trivial
    | some rule => exact rule.bounded_tagged
  exact Json.bounded_record (by simpa using ⟨hrule, v.bounded_tagged⟩)

/-- **The text of a report tells the outcome**: reports on one type and operation read alike
exactly when they are made of outcomes of which the same is told. -/
theorem text_report_eq_iff {v w : Visibility} :
    (report s typeName op v).pretty 0 ++ "\n" = (report s typeName op w).pretty 0 ++ "\n" ↔
      v.told = w.told := by
  rw [← v.tagged_eq_iff w]
  constructor
  · intro h
    have hreport := Json.pretty_inj (bounded_report v) (bounded_report w)
      (String.append_left_inj _ |>.1 h)
    have houtcome := congrArg (Json.child? "outcome") hreport
    rw [child?_report, child?_report] at houtcome
    exact Option.some.inj houtcome
  · intro h
    simp only [report, h]

end Explain

end GraphWarden
