/-!
# Sorted sets of names

Type names, interface names and node ids are handed out in one order, the
order of their characters' code points, and without repeats.  `Names.sorted`
brings any list into that form: it keeps exactly the members it was given
(`mem_sorted`) and its result is strictly rising (`sorted_rising`), so two lists
with the same members have the same sorted form (`sorted_congr`).
-/

namespace GraphWarden.Names

/-- Put a name into a rising list, unless it is there already. -/
def insert (name : String) : List String → List String
  | [] => [name]
  | x :: xs =>
    if name < x then name :: x :: xs
    else if x < name then x :: insert name xs
    else x :: xs

/-- The names of a list in rising order, each once. -/
def sorted (names : List String) : List String :=
  names.foldr insert []

/-- The names of a list in the order of their first appearance, each once. -/
def distinct : List String → List String
  | [] => []
  | x :: xs => x :: (distinct xs).filter (· != x)

/-- Strictly rising lists of names. -/
def Rising (names : List String) : Prop :=
  names.Pairwise (· < ·)

theorem eq_of_not_lt {a b : String} (hab : ¬ a < b) (hba : ¬ b < a) : a = b :=
  String.le_antisymm (String.not_lt.1 hba) (String.not_lt.1 hab)

/-- Inserting a name adds that name and loses none. -/
theorem mem_insert {a name : String} {xs : List String} :
    a ∈ insert name xs ↔ a = name ∨ a ∈ xs := by
  induction xs with
  | nil => simp [insert]
  | cons x xs ih =>
    unfold insert
    split
    · simp
    · split
      · simp only [List.mem_cons, ih]
        exact or_left_comm
      · next h1 h2 =>
        have : name = x := eq_of_not_lt h1 h2
        simp [this]

/-- A sorted set has the members of the list it was made of. -/
theorem mem_sorted {a : String} {names : List String} : a ∈ sorted names ↔ a ∈ names := by
  induction names with
  | nil => simp [sorted]
  | cons x xs ih =>
    have : sorted (x :: xs) = insert x (sorted xs) := rfl
    rw [this, mem_insert, ih, List.mem_cons]

/-- A name that is inserted into a rising list keeps it rising, also when it was there before. -/
theorem insert_rising {name : String} {xs : List String} (h : Rising xs) :
    Rising (insert name xs) := by
  induction xs with
  | nil => simp [insert, Rising]
  | cons x xs ih =>
    have hx : ∀ y ∈ xs, x < y := (List.pairwise_cons.1 h).1
    have hxs : Rising xs := (List.pairwise_cons.1 h).2
    unfold insert
    split
    · next hlt =>
      refine List.pairwise_cons.2 ⟨?_, h⟩
      intro y hy
      rcases List.mem_cons.1 hy with rfl | hy
      · exact hlt
      · exact String.lt_trans hlt (hx y hy)
    · split
      · next hlt =>
        refine List.pairwise_cons.2 ⟨?_, ih hxs⟩
        intro y hy
        rcases mem_insert.1 hy with rfl | hy
        · exact hlt
        · exact hx y hy
      · exact h

/-- Sorted sets rise strictly, so they hold no name twice. -/
theorem sorted_rising (names : List String) : Rising (sorted names) := by
  induction names with
  | nil => simp [sorted, Rising]
  | cons x xs ih => exact insert_rising ih

/-- Lists that rise in a strict order and have the same members are equal: no member occurs twice,
so the one is a rearrangement of the other, and only one arrangement rises. -/
theorem eq_of_rising {α : Type} {lt : α → α → Prop} (hasymm : ∀ {a b}, lt a b → ¬ lt b a)
    {xs ys : List α} (hx : xs.Pairwise lt) (hy : ys.Pairwise lt) (h : ∀ a, a ∈ xs ↔ a ∈ ys) :
    xs = ys := by
  have honce : ∀ {zs : List α}, zs.Pairwise lt → zs.Nodup := fun hz => hz.imp <| by
    rintro a _ hlt rfl
    exact hasymm hlt hlt
  have hrearranged := (List.perm_ext_iff_of_nodup (honce hx) (honce hy)).2 h
  exact hrearranged.eq_of_pairwise (fun _ _ _ _ hab hba => absurd hba (hasymm hab)) hx hy

/-- A rising list is determined by its members. -/
theorem rising_ext {xs ys : List String} (hx : Rising xs) (hy : Rising ys)
    (h : ∀ a, a ∈ xs ↔ a ∈ ys) : xs = ys :=
  eq_of_rising String.lt_asymm hx hy h

/-- Lists with the same members have the same sorted form.  Both forms rise strictly, and there is
only one rising list with given members. -/
theorem sorted_congr {xs ys : List String} (h : ∀ a, a ∈ xs ↔ a ∈ ys) : sorted xs = sorted ys :=
  rising_ext (sorted_rising xs) (sorted_rising ys) fun a => by
    rw [mem_sorted, mem_sorted, h a]

/-- Dropping repeats loses no name. -/
theorem mem_distinct {a : String} {names : List String} : a ∈ distinct names ↔ a ∈ names := by
  induction names with
  | nil => simp [distinct]
  | cons x xs ih =>
    by_cases hax : a = x
    · simp [distinct, hax]
    · simp [distinct, ih, hax]

theorem distinct_nodup (names : List String) : (distinct names).Nodup := by
  induction names with
  | nil => simp [distinct]
  | cons x xs ih =>
    refine List.nodup_cons.2 ⟨by simp, ih.filter _⟩

end GraphWarden.Names
