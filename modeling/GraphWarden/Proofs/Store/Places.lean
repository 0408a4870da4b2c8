import GraphWarden.Proofs.Schema.Accepted
import GraphWarden.Proofs.Store.Shown
import GraphWarden.Tagged.Reader

/-!
# Places in an answer

A record is a tree of data, and each datum in it that is an object tells of one stored node.  A
`Place` is such a datum, with the node and with what was selected of it, and `Graph.Leads` walks
from a place along an edge to the places behind it: in the list that stands there under the key
of the edge, the data tell of the nodes that the edge shows, one of each and in the same order.
Only a key that no other selection uses is followed, since of two data under one key the later
stays.

**At every place stands just what is selected there shows of the node** (`datum_of_leads`), and
so under a key of its own just what that selection shows (`under?_datum`).
-/

namespace GraphWarden

/-- No other of the selections is reported under the same key. -/
def Selection.Lone (x : Selection) (selections : List Selection) : Prop :=
  x ∈ selections ∧ ∀ y ∈ selections, y.key = x.key → y = x

/-- Of several entries with one key that all hold the same, the map holds that. -/
theorem Entries.find?_ofList_of_unique {α : Type} {pairs : Entries α} {key : String} {value : α}
    (hmem : (key, value) ∈ pairs) (hunique : ∀ other, (key, other) ∈ pairs → other = value) :
    find? key (ofList pairs) = some value := by
  obtain ⟨found, hfound⟩ := Option.isSome_iff_exists.1 (Keyed.isSome_find?_ofList hmem)
  rw [← hunique found (Keyed.mem_of_find?_ofList hfound)]
  exact hfound

/-- What stands beside an element in a list of images is the image of that element. -/
theorem eq_of_mem_zip_map {α β : Type} {f : α → β} {xs : List α} {a : α} {b : β}
    (h : (a, b) ∈ xs.zip (xs.map f)) : b = f a := by
  have hpairs : xs.zip (xs.map f) = xs.map fun a => (a, f a) := by
    simpa using List.zip_map' (f := id) (g := f) (l := xs)
  rw [hpairs] at h
  obtain ⟨a', _, heq⟩ := List.mem_map.1 h
  cases heq
  rfl

/-- An object in an answer: what was selected, the stored node, and what is reported of it. -/
structure Place where
  selections : List Selection
  node : Node
  datum : Json

namespace Graph

variable {g : Graph} {sees : Node → Bool} {x : Selection} {n : Node} {targets : List String}

/-- The nodes that an edge shows, in the order of the edge. -/
def shownBehind (g : Graph) (sees : Node → Bool) (x : Selection) (targets : List String) :
    List Node :=
  (g.among targets).filter fun m =>
    (x.targetType.all fun t => m.isA t && sees m) && x.filter.all fun f => f.meets g m

/-- What selections show of a node, as one datum. -/
def datum (g : Graph) (sees : Node → Bool) (selections : List Selection) (n : Node) : Json :=
  .object (Entries.ofList (g.shown sees selections n))

/-- What selections show of a node is what each of them shows, in their order. -/
theorem shown_eq_map (selections : List Selection) :
    g.shown sees selections n = selections.map fun x => g.shownOne sees x n := by
  induction selections with
  | nil => rw [shown, List.map_nil]
  | cons x xs ih => rw [shown, ih, List.map_cons]

/-- What a selection shows it shows under its own key. -/
theorem shownOne_fst : (g.shownOne sees x n).1 = x.key := by
  cases x with
  | mk name label targetType filter selections =>
      rw [shownOne]
      simp only [Selection.key]
      split
      · rfl
      · split <;> rfl

/-- An edge shows the data of the nodes behind it, in order. -/
theorem shownOne_edges (hname : x.name ≠ "id")
    (hedges : n.fields.find? x.name = some (.edges targets)) :
    (g.shownOne sees x n).2 =
      .list ((g.shownBehind sees x targets).map (g.datum sees x.selections)) := by
  cases x with
  | mk name label targetType filter selections =>
      simp only at hname hedges
      rw [shownOne]
      simp only [if_neg hname, hedges]
      rfl

/-- Under a key of its own stands what a selection shows. -/
theorem under?_datum {selections : List Selection} (hlone : x.Lone selections) :
    (g.datum sees selections n).under? x.key = some (g.shownOne sees x n).2 := by
  show Entries.find? x.key (Entries.ofList (g.shown sees selections n)) = _
  rw [shown_eq_map]
  refine Entries.find?_ofList_of_unique ?_ ?_
  · exact List.mem_map.2 ⟨x, hlone.1, Prod.ext shownOne_fst rfl⟩
  · intro other hother
    obtain ⟨y, hy, heq⟩ := List.mem_map.1 hother
    have hfst : (g.shownOne sees y n).1 = y.key := shownOne_fst
    have hkey : y.key = x.key := by rw [← hfst, heq]
    rw [hlone.2 y hy hkey] at heq
    rw [heq]

/-- The places in an answer at or below a place. -/
inductive Leads (g : Graph) (sees : Node → Bool) (top : Place) : Place → Prop where
  | here : Leads g sees top top
  | behind {place : Place} {x : Selection} {targets : List String} {items : List Json} {m : Node}
      {item : Json} : Leads g sees top place → x.Lone place.selections → x.name ≠ "id" →
      place.node.fields.find? x.name = some (.edges targets) →
      place.datum.under? x.key = some (.list items) →
      (m, item) ∈ (g.shownBehind sees x targets).zip items →
      Leads g sees top ⟨x.selections, m, item⟩

/-- **At every place stands just what is selected there shows of the node.** -/
theorem datum_of_leads {top place : Place} (h : g.Leads sees top place)
    (htop : top.datum = g.datum sees top.selections top.node) :
    place.datum = g.datum sees place.selections place.node := by
  induction h with
  | here => exact htop
  | behind _ hlone hname hedges hitems hmem ih =>
      rw [ih, under?_datum hlone, shownOne_edges hname hedges] at hitems
      obtain rfl := Json.list.inj (Option.some.inj hitems)
      exact eq_of_mem_zip_map hmem

end Graph

end GraphWarden
