import GraphWarden.Proofs.Filter.Reading
import GraphWarden.Store.Match

/-!
# What a store says of a node

Two readings of filters for one node.  `verdict` is the store's own answer, without
the wording of its failures.  `meets` is plain truth, where a comparison that cannot
be made counts as one that does not hold; it looks at every part and fails nowhere.

A store that answers tells the truth (`meets_of_accepts`), however far it had to look.
Both are readings (`verdict_reading`, `meets_reading`), because values of one
structure compare alike.  So a store that answers for filters one by one answers for their
conjunction and their disjunction, and says of them what it says of the filters
(`accepts_together`).
-/

namespace GraphWarden

/-- Forgetting the wording of failures commutes with going on after a success. -/
theorem toOption_bind {ε α β : Type} (x : Except ε α) (k : α → Except ε β) :
    (x >>= k).toOption = x.toOption.bind fun a => (k a).toOption := by
  cases x <;> rfl

theorem toOption_map {ε α β : Type} (f : α → β) (x : Except ε α) :
    (x.map f).toOption = x.toOption.map f := by
  cases x <;> rfl

/-- An answer is there without its wording exactly when it is there. -/
theorem toOption_eq_some_iff {ε α : Type} {x : Except ε α} {a : α} :
    x.toOption = some a ↔ x = .ok a := by
  cases x <;> simp [Except.toOption]

theorem exists_of_isOk {ε α : Type} {x : Except ε α} (h : x.isOk = true) : ∃ a, x = .ok a := by
  cases x with
  | error e => simp [Except.isOk, Except.toBool] at h
  | ok a => exact ⟨a, rfl⟩

namespace Filter

/-- What the store says of a node; none when it fails. -/
def verdict (g : Graph) (n : Node) (f : Filter) : Option Bool :=
  (f.accepts g n).toOption

mutual

/-- What is true of a node; a comparison that cannot be made does not hold. -/
def meets (g : Graph) (f : Filter) (n : Node) : Bool :=
  match f with
  | .nothing => false
  | .compare field op operand =>
    match n.fields.find? field with
    | some (.scalar stored) => (op.holdsIn operand stored).toOption.getD false
    | _ => false
  | .has field => g.hasField n field
  | .ids listed => listed.contains n.id
  | .isType typeName => n.isA typeName
  | .edge field inner => (g.behind n field).any fun m => meets g inner m
  | .all parts => meetsAll g parts n
  | .any parts => meetsAny g parts n
  | .not inner => !meets g inner n

def meetsAll (g : Graph) (parts : List Filter) (n : Node) : Bool :=
  match parts with
  | [] => true
  | f :: fs => meets g f n && meetsAll g fs n

def meetsAny (g : Graph) (parts : List Filter) (n : Node) : Bool :=
  match parts with
  | [] => false
  | f :: fs => meets g f n || meetsAny g fs n

end

variable {g : Graph}

/-- A store goes through the parts of a conjunction in turn and stops at the first that does not
hold or cannot be answered. -/
theorem toOption_acceptsAll (n : Node) (parts : List Filter) :
    (acceptsAll g parts n).toOption = inTurn (verdict g n) false parts := by
  induction parts with
  | nil => simp [acceptsAll, inTurn, Except.toOption]
  | cons f fs ih =>
      rw [acceptsAll, toOption_bind, inTurn, verdict]
      congr 1
      funext b
      cases b
      · rfl
      · simpa using ih

/-- Of a disjunction it stops at the first part that holds or cannot be answered. -/
theorem toOption_acceptsAny (n : Node) (parts : List Filter) :
    (acceptsAny g parts n).toOption = inTurn (verdict g n) true parts := by
  induction parts with
  | nil => simp [acceptsAny, inTurn, Except.toOption]
  | cons f fs ih =>
      rw [acceptsAny, toOption_bind, inTurn, verdict]
      congr 1
      funext b
      cases b
      · simpa using ih
      · rfl

/-- Plain truth looks at all parts of a conjunction. -/
theorem meetsAll_eq_all (n : Node) (parts : List Filter) :
    meetsAll g parts n = parts.all fun f => meets g f n := by
  induction parts with
  | nil => rfl
  | cons f fs ih => rw [meetsAll, ih, List.all_cons]

/-- Plain truth looks at all parts of a disjunction. -/
theorem meetsAny_eq_any (n : Node) (parts : List Filter) :
    meetsAny g parts n = parts.any fun f => meets g f n := by
  induction parts with
  | nil => rfl
  | cons f fs ih => rw [meetsAny, ih, List.any_cons]

/-- A search that succeeds found what there is to be found. -/
theorem any_of_anyM {α : Type} {p : α → Answer Bool} {q : α → Bool} {b : Bool} {xs : List α}
    (hpq : ∀ x ∈ xs, ∀ b, p x = .ok b → q x = b) (h : xs.anyM p = .ok b) : xs.any q = b := by
  induction xs with
  | nil => simpa [List.anyM, pure, Except.pure] using h
  | cons x xs ih =>
      rw [List.anyM] at h
      cases hx : p x with
      | error e => simp [hx, bind, Except.bind] at h
      | ok c =>
          rw [List.any_cons, hpq x List.mem_cons_self c hx]
          cases c with
          | true => simpa [hx, bind, Except.bind, pure, Except.pure] using h
          | false =>
              rw [Bool.false_or]
              exact ih (fun y hy => hpq y (List.mem_cons_of_mem _ hy))
                (by simpa [hx, bind, Except.bind] using h)

/-- A search that ends with yes has come to what it was looking for. -/
theorem exists_of_anyM {α : Type} {p : α → Answer Bool} {xs : List α} (h : xs.anyM p = .ok true) :
    ∃ x ∈ xs, p x = .ok true := by
  induction xs with
  | nil => simp [List.anyM, pure, Except.pure] at h
  | cons x xs ih =>
      rw [List.anyM] at h
      cases hx : p x with
      | error e => simp [hx, bind, Except.bind] at h
      | ok b =>
          cases b with
          | true => exact ⟨x, List.mem_cons_self, hx⟩
          | false =>
              obtain ⟨y, hy, hp⟩ := ih (by simpa [hx, bind, Except.bind] using h)
              exact ⟨y, List.mem_cons_of_mem _ hy, hp⟩

/-- A search succeeds, with yes or no, when every question in it can be answered. -/
theorem anyM_isOk {α : Type} {p : α → Answer Bool} {xs : List α}
    (h : ∀ x ∈ xs, (p x).isOk = true) : ∃ b, xs.anyM p = .ok b := by
  induction xs with
  | nil => exact ⟨false, rfl⟩
  | cons x xs ih =>
      obtain ⟨b, hb⟩ := exists_of_isOk (h x List.mem_cons_self)
      obtain ⟨c, hc⟩ := ih fun y hy => h y (List.mem_cons_of_mem _ hy)
      cases b with
      | true => exact ⟨true, by rw [List.anyM, hb]; rfl⟩
      | false => exact ⟨c, by rw [List.anyM, hb]; exact hc⟩

mutual

/-- **A store that answers tells the truth.**  It may fail at a comparison or at a node behind an
edge, and where it does not, it goes through the filter just as plain truth does. -/
theorem meets_of_accepts : (f : Filter) → (n : Node) → (b : Bool) →
    f.accepts g n = .ok b → f.meets g n = b
  | .nothing, n, b, h | .has _, n, b, h | .ids _, n, b, h | .isType _, n, b, h => by
      simpa [accepts, meets] using h
  | .compare field op operand, n, b, h => by
      rw [accepts] at h
      rw [meets]
      cases hstored : n.fields.find? field with
      | none => simpa [hstored] using h
      | some value =>
          rw [hstored] at h
          cases value with
          | scalar stored =>
              have hholds : op.holdsIn operand stored = .ok b := h
              simp [hholds, Except.toOption]
          | edges targets => simpa using h
  | .edge field inner, n, b, h => by
      rw [accepts] at h
      rw [meets]
      exact any_of_anyM (fun m _ c hc => meets_of_accepts inner m c hc) h
  | .all parts, n, b, h => by
      rw [accepts] at h
      rw [meets]
      exact meetsAll_of_acceptsAll parts n b h
  | .any parts, n, b, h => by
      rw [accepts] at h
      rw [meets]
      exact meetsAny_of_acceptsAny parts n b h
  | .not inner, n, b, h => by
      rw [accepts] at h
      rw [meets]
      cases hinner : inner.accepts g n with
      | error e => simp [hinner, Except.map] at h
      | ok c =>
          rw [meets_of_accepts inner n c hinner]
          simpa [hinner, Except.map] using h

/-- What a store says of a conjunction is true, even if it did not look at every part: what it left
out cannot turn a no into a yes. -/
theorem meetsAll_of_acceptsAll : (parts : List Filter) → (n : Node) → (b : Bool) →
    acceptsAll g parts n = .ok b → meetsAll g parts n = b
  | [], n, b, h => by simpa [acceptsAll, meetsAll] using h
  | f :: fs, n, b, h => by
      rw [acceptsAll] at h
      rw [meetsAll]
      cases hf : f.accepts g n with
      | error e => simp [hf, bind, Except.bind] at h
      | ok c =>
          rw [meets_of_accepts f n c hf]
          cases c with
          | false => simpa [hf, bind, Except.bind] using h
          | true => exact meetsAll_of_acceptsAll fs n b (by simpa [hf, bind, Except.bind] using h)

/-- Where a store answers for a disjunction, it tells the truth: a yes is one that later parts
cannot undo. -/
theorem meetsAny_of_acceptsAny : (parts : List Filter) → (n : Node) → (b : Bool) →
    acceptsAny g parts n = .ok b → meetsAny g parts n = b
  | [], n, b, h => by simpa [acceptsAny, meetsAny] using h
  | f :: fs, n, b, h => by
      rw [acceptsAny] at h
      rw [meetsAny]
      cases hf : f.accepts g n with
      | error e => simp [hf, bind, Except.bind] at h
      | ok c =>
          rw [meets_of_accepts f n c hf]
          cases c with
          | true => simpa [hf, bind, Except.bind] using h
          | false => exact meetsAny_of_acceptsAny fs n b (by simpa [hf, bind, Except.bind] using h)

end

theorem verdict_eq_some_iff {f : Filter} {n : Node} {b : Bool} :
    verdict g n f = some b ↔ f.accepts g n = .ok b :=
  toOption_eq_some_iff

/-- **A store that answers tells the truth**, said of readings. -/
theorem meets_of_verdict {f : Filter} {n : Node} {b : Bool} (h : verdict g n f = some b) :
    f.meets g n = b :=
  meets_of_accepts f n b (toOption_eq_some_iff.1 h)

end Filter

/-! ### Operands of one structure -/

section Operands

variable {v w : Value}

/-- Values of one structure are found among equal values alike. -/
theorem looseEq_any_congr {vs ws : List Value} (h : Value.sameItems vs ws = true) (x : Value) :
    vs.any x.looseEq = ws.any x.looseEq := by
  induction vs generalizing ws with
  | nil => cases ws <;> simp_all [Value.sameItems]
  | cons v vs ih =>
      cases ws with
      | nil => simp [Value.sameItems] at h
      | cons w ws =>
          simp only [Value.sameItems, Bool.and_eq_true] at h
          rw [List.any_cons, List.any_cons, Value.looseEq_congr x v w h.1, ih h.2]

theorem asText_congr (h : v.same w = true) : v.asText = w.asText := by
  cases v <;> cases w <;> simp_all [Value.same, Value.asText]

/-- Whether a value is one of several does not depend on which of two structurally equal lists
holds them. -/
theorem oneOf_congr (h : v.same w = true) (x : Value) :
    Comparison.oneOf.holds v x = Comparison.oneOf.holds w x := by
  have hloose := Value.looseEq_congr x v w h
  cases v <;> cases w <;> simp [Value.same] at h <;> simp only [Comparison.holds, hloose]
  rw [looseEq_any_congr h]

/-- Patterns that are written alike match alike, and are unreadable alike. -/
theorem matching_congr (h : v.same w = true) (x : Value) :
    (Comparison.matching.holds v x).toOption = (Comparison.matching.holds w x).toOption := by
  simp only [Comparison.holds, asText_congr h]
  cases w.asText with
  | none => rfl
  | some source => cases Pattern.ofSource? (bareSource source) <;> rfl

/-- Every comparison comes out the same for operands of one structure, failures included but for
their wording. -/
theorem Comparison.holds_congr (h : v.same w = true) (op : Comparison) (x : Value) :
    (op.holds v x).toOption = (op.holds w x).toOption := by
  have hloose := Value.looseEq_congr x v w h
  have horder := Value.looseCompare?_congr h x
  cases op with
  | oneOf => rw [oneOf_congr h]
  | matching => exact matching_congr h x
  | equal => simp only [Comparison.holds, hloose]
  | below | atMost | above | atLeast => simp only [Comparison.holds, horder]

mutual

/-- Comparisons with values of one structure agree also where a stored list is looked through for
one item that compares. -/
theorem Comparison.holdsIn_congr (h : v.same w = true) (op : Comparison) : (x : Value) →
    (op.holdsIn v x).toOption = (op.holdsIn w x).toOption
  | .list items => by
      rw [holdsIn, holdsIn]
      exact holdsInAny_congr h op items
  | .variable _ | .int _ | .float _ | .text _ | .flag _ | .null | .enum _ | .object _ => by
      simpa [holdsIn] using holds_congr h op _

theorem Comparison.holdsInAny_congr (h : v.same w = true) (op : Comparison) : (xs : List Value) →
    (op.holdsInAny v xs).toOption = (op.holdsInAny w xs).toOption
  | [] => by rw [holdsInAny, holdsInAny]
  | x :: xs => by
      rw [holdsInAny, holdsInAny, toOption_bind, toOption_bind, holdsIn_congr h op x]
      congr 1
      funext b
      cases b
      · simpa using holdsInAny_congr h op xs
      · rfl

end

end Operands

namespace Filter

variable {g : Graph}

/-- Searches with the same answers to every question have the same answer. -/
theorem toOption_anyM_congr {α : Type} {p q : α → Answer Bool}
    (h : ∀ x, (p x).toOption = (q x).toOption) (xs : List α) :
    (xs.anyM p).toOption = (xs.anyM q).toOption := by
  induction xs with
  | nil => rfl
  | cons x xs ih =>
      rw [List.anyM, List.anyM, toOption_bind, toOption_bind, h x]
      congr 1
      funext b
      cases b
      · exact ih
      · rfl

mutual

/-- The store does not tell filters of one structure apart. -/
theorem verdict_congr : (f f' : Filter) → (n : Node) → same f f' = true →
    (f.accepts g n).toOption = (f'.accepts g n).toOption
  | .nothing, f', n, h | .has _, f', n, h | .ids _, f', n, h | .isType _, f', n, h => by
      cases f' <;> simp_all [same]
  | .compare field op v, f', n, h => by
      cases f' <;> simp [same] at h
      obtain ⟨⟨rfl, rfl⟩, hv⟩ := h
      rw [accepts, accepts]
      split
      · exact Comparison.holdsIn_congr hv op _
      · rfl
  | .edge field inner, f', n, h => by
      cases f' <;> simp [same] at h
      obtain ⟨rfl, hinner⟩ := h
      rw [accepts, accepts]
      exact toOption_anyM_congr (fun m => verdict_congr inner _ m hinner) _
  | .all parts, f', n, h => by
      cases f' <;> simp [same] at h
      rw [accepts, accepts, toOption_acceptsAll, toOption_acceptsAll]
      exact inTurn_congr parts _ false n h
  | .any parts, f', n, h => by
      cases f' <;> simp [same] at h
      rw [accepts, accepts, toOption_acceptsAny, toOption_acceptsAny]
      exact inTurn_congr parts _ true n h
  | .not inner, f', n, h => by
      cases f' <;> simp [same] at h
      rw [accepts, accepts, toOption_map, toOption_map, verdict_congr inner _ n h]

/-- Lists of filters of one structure are read alike in turn, wherever the reading stops. -/
theorem inTurn_congr : (fs fs' : List Filter) → (stop : Bool) → (n : Node) →
    sameParts fs fs' = true → inTurn (verdict g n) stop fs = inTurn (verdict g n) stop fs'
  | [], fs', stop, n, h => by cases fs' <;> simp_all [sameParts]
  | f :: fs, [], stop, n, h => by simp [sameParts] at h
  | f :: fs, f' :: fs', stop, n, h => by
      simp only [sameParts, Bool.and_eq_true] at h
      rw [inTurn, inTurn, inTurn_congr fs fs' stop n h.2]
      exact congrArg (Option.bind · _) (verdict_congr f f' n h.1)

end

mutual

/-- Filters of one structure are true of the same nodes. -/
theorem meets_congr : (f f' : Filter) → (n : Node) → same f f' = true →
    f.meets g n = f'.meets g n
  | .nothing, f', n, h | .has _, f', n, h | .ids _, f', n, h | .isType _, f', n, h => by
      cases f' <;> simp_all [same]
  | .compare field op v, f', n, h => by
      cases f' <;> simp [same] at h
      obtain ⟨⟨rfl, rfl⟩, hv⟩ := h
      rw [meets, meets]
      split
      · rw [Comparison.holdsIn_congr hv]
      · rfl
  | .edge field inner, f', n, h => by
      cases f' <;> simp [same] at h
      obtain ⟨rfl, hinner⟩ := h
      rw [meets, meets]
      exact congrArg _ (funext fun m => meets_congr inner _ m hinner)
  | .all parts, f', n, h => by
      cases f' <;> simp [same] at h
      rw [meets, meets]
      exact (meetsParts_congr parts _ n h).1
  | .any parts, f', n, h => by
      cases f' <;> simp [same] at h
      rw [meets, meets]
      exact (meetsParts_congr parts _ n h).2
  | .not inner, f', n, h => by
      cases f' <;> simp [same] at h
      rw [meets, meets, meets_congr inner _ n h]

/-- Parts of one structure are met alike, in conjunctions and in disjunctions at once. -/
theorem meetsParts_congr : (fs fs' : List Filter) → (n : Node) → sameParts fs fs' = true →
    meetsAll g fs n = meetsAll g fs' n ∧ meetsAny g fs n = meetsAny g fs' n
  | [], fs', n, h => by cases fs' <;> simp_all [sameParts]
  | f :: fs, [], n, h => by simp [sameParts] at h
  | f :: fs, f' :: fs', n, h => by
      simp only [sameParts, Bool.and_eq_true] at h
      have hrest := meetsParts_congr fs fs' n h.2
      simp only [meetsAll, meetsAny, meets_congr f f' n h.1, hrest, and_self]

end

/-- **What a store says is a reading of filters**, so all that is proved of readings holds of
stores. -/
theorem verdict_reading (g : Graph) (n : Node) : Reading (verdict g n) where
  nothing := by simp [verdict, accepts, Except.toOption]
  all parts := by rw [← toOption_acceptsAll, verdict, accepts]
  any parts := by rw [← toOption_acceptsAny, verdict, accepts]
  not f := by rw [verdict, accepts, toOption_map, verdict]
  congr f f' h := verdict_congr f f' n h

/-- What parts that never fail say one after the other. -/
theorem inTurn_some (p : Filter → Bool) (fs : List Filter) :
    inTurn (fun f => some (p f)) false fs = some (fs.all p) ∧
      inTurn (fun f => some (p f)) true fs = some (fs.any p) := by
  induction fs with
  | nil => simp [inTurn]
  | cons f fs ih => cases hf : p f <;> simp [inTurn, hf, ih]

/-- Plain truth is a reading too, and one that always answers. -/
theorem meets_reading (g : Graph) (n : Node) : Reading fun f => some (f.meets g n) where
  nothing := by simp [meets]
  all parts := by rw [(inTurn_some _ parts).1, meets, meetsAll_eq_all]
  any parts := by rw [(inTurn_some _ parts).2, meets, meetsAny_eq_any]
  not f := by rw [meets, Option.map_some]
  congr f f' h := congrArg some (meets_congr f f' n h)

/-! ### Filters put together -/

theorem isSome_verdict_iff {f : Filter} {n : Node} :
    (verdict g n f).isSome ↔ (f.accepts g n).isOk = true := by
  cases hf : f.accepts g n <;> simp [verdict, hf, Except.toOption, Except.isOk, Except.toBool]

/-- **Putting filters together keeps their meaning.**  Where each of them is answered, their
conjunction is answered, with yes exactly when all of them are answered with yes, and so is their
disjunction, with yes exactly when one of them is. -/
theorem accepts_together {n : Node} {fs : List Filter}
    (h : ∀ f ∈ fs, (f.accepts g n).isOk = true) :
    (((andAll fs).accepts g n).isOk = true ∧
      ((andAll fs).accepts g n = .ok true ↔ ∀ f ∈ fs, f.accepts g n = .ok true)) ∧
    (((orAll fs).accepts g n).isOk = true ∧
      ((orAll fs).accepts g n = .ok true ↔ ∃ f ∈ fs, f.accepts g n = .ok true)) := by
  have hread := verdict_reading g n
  have hsome : ∀ f ∈ fs, (verdict g n f).isSome := fun f hf => isSome_verdict_iff.2 (h f hf)
  simp only [← isSome_verdict_iff, ← verdict_eq_some_iff]
  refine ⟨⟨hread.andAll_isSome hsome, hread.andAll_eq_true_iff⟩, ?_,
    hread.orAll_eq_true_iff hsome⟩
  rw [hread.orAll]
  exact inTurn_isSome hsome

/-- A note with a title and without an owner. -/
def untaken : Node :=
  { id := "n1", typeName := "Note", fields := Keyed.ofList [("title", .scalar (.text "plan"))] }

/-- A comparison that cannot be made where there is a title. -/
def garbled : Filter := .compare "title" .matching (.int 3)

/-- Filters that come to the garbled comparison only when nothing in front of it decides. -/
def guarded : List Filter :=
  [.any [.has "title", garbled], .has "title", .any [.has "title", garbled],
    .all [.all [.has "owner"], garbled]]

/-- The garbled comparison cannot be made of the note.  And yet each of the guarded filters is
answered, because something in front of the comparison decides; and so is what they make together.
-/
theorem untaken_guarded :
    (garbled.accepts Graph.empty untaken).isOk = false ∧
    (∀ f ∈ guarded, (f.accepts Graph.empty untaken).isOk = true) ∧
    (andAll guarded).accepts Graph.empty untaken = .ok false ∧
    (orAll guarded).accepts Graph.empty untaken = .ok true := by
  have hanswered : ∀ f ∈ guarded, (f.accepts Graph.empty untaken).isOk = true := by decide
  have htitle : (has "title").accepts Graph.empty untaken = .ok true := rfl
  have howner : (all [.all [.has "owner"], garbled]).accepts Graph.empty untaken = .ok false := rfl
  obtain ⟨⟨hok, hall⟩, _, hsome⟩ := accepts_together hanswered
  refine ⟨rfl, hanswered, ?_, hsome.2 ⟨_, by simp [guarded], htitle⟩⟩
  obtain ⟨b, hb⟩ := exists_of_isOk hok
  cases b with
  | false => exact hb
  | true =>
      have hyes := hall.1 hb _ (by simp [guarded] : all [.all [.has "owner"], garbled] ∈ guarded)
      simp [howner] at hyes

end Filter

end GraphWarden
