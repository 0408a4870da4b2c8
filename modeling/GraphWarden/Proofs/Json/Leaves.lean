import GraphWarden.Json.Basic
import GraphWarden.Number.Word

/-!
# The leaves of a datum

A property of data that have no parts is asked of all such parts of a datum at once.  It
passes to the items of a list and to what the entries of an object hold, and it stays when
the datum is normalized, since that only moves and drops entries.

Data are `Bounded` when no number is infinite, and `Regular` when moreover every integer
fits a machine word, as the numbers of data that were read do.
-/

namespace GraphWarden

/-- What is in a sorted list of entries was among the pairs. -/
theorem Entries.mem_of_mem_ofList {α : Type} {e : String × α} {pairs : Entries α}
    (h : e ∈ Entries.ofList pairs) : e ∈ pairs := by
  have hlast := find?_eq_some_of_mem (ofList_rising pairs) h
  rw [find?_ofList] at hlast
  exact List.mem_reverse.1 (mem_of_find?_eq_some hlast)

namespace Json

mutual

/-- Every part of the datum that has no parts itself has the property. -/
def Leaves (P : Json → Prop) : Json → Prop
  | .list items => LeavesItems P items
  | .object entries => LeavesEntries P entries
  | j => P j

def LeavesItems (P : Json → Prop) : List Json → Prop
  | [] => True
  | j :: js => Leaves P j ∧ LeavesItems P js

def LeavesEntries (P : Json → Prop) : List (String × Json) → Prop
  | [] => True
  | (_, j) :: es => Leaves P j ∧ LeavesEntries P es

end

variable {P : Json → Prop}

/-- A property of leaves holds of all items when it holds of each. -/
theorem leavesItems_iff {js : List Json} : LeavesItems P js ↔ ∀ j ∈ js, j.Leaves P := by
  induction js with
  | nil => simp [LeavesItems]
  | cons j js ih => simp [LeavesItems, ih]

/-- A property of leaves holds of all entries when it holds of what each of them holds. -/
theorem leavesEntries_iff {es : List (String × Json)} :
    LeavesEntries P es ↔ ∀ e ∈ es, e.2.Leaves P := by
  induction es with
  | nil => simp [LeavesEntries]
  | cons e es ih => simp [LeavesEntries, ih]

mutual

/-- Normalizing brings no new leaves. -/
theorem Leaves.normalized : (j : Json) → j.Leaves P → j.normalized.Leaves P
  | .null, h | .flag _, h | .int _, h | .float _, h | .text _, h => h
  | .list items, h => LeavesItems.normalized items h
  | .object entries, h =>
      leavesEntries_iff.2 fun e he =>
        leavesEntries_iff.1 (LeavesEntries.normalized entries h) e (Entries.mem_of_mem_ofList he)

theorem LeavesItems.normalized : (js : List Json) → LeavesItems P js →
    LeavesItems P (normalizedItems js)
  | [], _ => trivial
  | j :: js, h => ⟨Leaves.normalized j h.1, LeavesItems.normalized js h.2⟩

/-- The leaves of normalized entries are leaves of the entries, some of which may be gone. -/
theorem LeavesEntries.normalized : (es : List (String × Json)) → LeavesEntries P es →
    LeavesEntries P (normalizedEntries es)
  | [], _ => trivial
  | (_, j) :: es, h => ⟨Leaves.normalized j h.1, LeavesEntries.normalized es h.2⟩

end

/-! ### Numbers -/

/-- Not an infinite number. -/
def BoundedLeaf : Json → Prop
  | .float x => x.isFinite = true
  | _ => True

/-- No number of the datum is infinite. -/
def Bounded (j : Json) : Prop :=
  j.Leaves BoundedLeaf

/-- Neither an infinite number nor an integer that does not fit a word, signed or unsigned. -/
def RegularLeaf : Json → Prop
  | .int i => Word.intMin ≤ i ∧ i ≤ Word.natMax
  | .float x => x.isFinite = true
  | _ => True

/-- The numbers of the datum are those of the interchange form. -/
def Regular (j : Json) : Prop :=
  j.Leaves RegularLeaf

end Json

end GraphWarden
