import Mathlib.Data.List.Induction
import GraphWarden.Graphql.Literal

/-!
# Literals as they are written

The value of a literal does not show how it was written: of an object that names a key twice, its
value holds one entry (`Entries.ofList`).  What was written is kept here as a syntax tree
(`Literal`), and a literal is read exactly from the words of such a tree (`exists_of_entries?`).
These words leave no choice: **no literal begins with the words of another one**
(`Literal.words_append_inj`).

Brackets are taken together before anything is read.  What was inside and behind the innermost
bracket is found again by `exists_of_forestFrom`.
-/

namespace GraphWarden

namespace Entries

variable {α : Type} {entries : Entries α} {key key' : String} {value value' : α}

/-- An entry that is written last is put over what was written before it. -/
theorem ofList_append_singleton (entries : Entries α) (e : String × α) :
    ofList (entries ++ [e]) = put e.1 e.2 (ofList entries) := by
  simp [ofList, List.foldl_append]

/-- Putting an entry leaves one entry only where there was none, or one that it replaces. -/
theorem of_put_eq_singleton (h : put key' value' entries = [(key, value)]) :
    key' = key ∧ value' = value ∧ (entries = [] ∨ ∃ old, entries = [(key, old)]) := by
  cases entries with
  | nil =>
      obtain ⟨rfl, rfl⟩ := by simpa [put] using h
      exact ⟨rfl, rfl, Or.inl rfl⟩
  | cons e rest =>
      obtain ⟨k, old⟩ := e
      unfold put at h
      split at h
      · simp at h
      · split at h
        · obtain ⟨_, hrest⟩ := List.cons.inj h
          cases rest with
          | nil => simp [put] at hrest
          | cons e rest =>
              unfold put at hrest
              split at hrest
              · simp at hrest
              · split at hrest <;> simp at hrest
        · next hle hge =>
          obtain ⟨hsame, rfl⟩ := List.cons.inj h
          obtain ⟨rfl, rfl⟩ := Prod.mk.inj hsame
          obtain rfl := Names.eq_of_not_lt hle hge
          exact ⟨rfl, rfl, Or.inr ⟨old, rfl⟩⟩

/-- Entries are never lost altogether when they are put in order: an object without entries was
written without any. -/
theorem eq_nil_of_ofList_eq_nil (h : ofList entries = []) : entries = [] := by
  induction entries using List.reverseRecOn with
  | nil => rfl
  | append_singleton before e _ =>
      rw [ofList_append_singleton] at h
      cases hbefore : ofList before with
      | nil => simp [hbefore, put] at h
      | cons first rest =>
          rw [hbefore] at h
          unfold put at h
          split at h
          · simp at h
          · split at h <;> simp at h

/-- Where repeated keys leave one entry, it is the last, and all others have its key. -/
theorem of_ofList_eq_singleton (h : ofList entries = [(key, value)]) :
    entries.getLast? = some (key, value) ∧ ∀ e ∈ entries, e.1 = key := by
  induction entries using List.reverseRecOn generalizing value with
  | nil => simp [ofList] at h
  | append_singleton before e ih =>
      rw [ofList_append_singleton] at h
      obtain ⟨rfl, rfl, hbefore⟩ := of_put_eq_singleton h
      refine ⟨by simp, ?_⟩
      intro e' he'
      rcases List.mem_append.1 he' with he' | he'
      · rcases hbefore with hnone | ⟨old, hold⟩
        · rw [eq_nil_of_ofList_eq_nil hnone] at he'
          simp at he'
        · exact (ih hold).2 e' he'
      · rw [List.mem_singleton.1 he']

end Entries

namespace Graphql

/-! ### The words of brackets -/

mutual

/-- The words that a tree was made of. -/
def Tree.words : Tree → List Token
  | .leaf t => [t]
  | .group b items => .opening b :: (wordsOf items ++ [.closing b])

def wordsOf : List Tree → List Token
  | [] => []
  | t :: ts => t.words ++ wordsOf ts

end

/-- The words of trees in a row are those of the trees, one after the other. -/
@[simp] theorem wordsOf_append (ts us : List Tree) :
    wordsOf (ts ++ us) = wordsOf ts ++ wordsOf us := by
  induction ts with
  | nil => rfl
  | cons t ts ih => simp [wordsOf, ih]

/-- Words are read in two steps: up to the end of the innermost bracket, and what follows it.  By
induction on the number of words that are left, since the bracket that is opened next ends
somewhere among them. -/
theorem exists_of_forestFrom {b : Bracket} {before done : List Tree}
    {outer : List (Bracket × List Tree)} {tokens : List Token} {trees : List Tree}
    (h : forestFrom ((b, before) :: outer) done tokens = some trees) :
    ∃ items after, tokens = wordsOf items ++ .closing b :: after ∧
      forestFrom outer (.group b (done.reverse ++ items) :: before) after = some trees := by
  induction hn : tokens.length using Nat.strongRecOn
    generalizing b before done outer tokens with
  | ind n ih =>
    subst hn
    cases tokens with
    | nil => simp [forestFrom] at h
    | cons t rest =>
        cases t with
        | opening b' =>
            rw [forestFrom] at h
            split at h
            · obtain ⟨inner, after, rfl, hafter⟩ := ih rest.length (by simp) h rfl
              have hlt : after.length < (wordsOf inner ++ .closing b' :: after).length + 1 := by
                simp only [List.length_append, List.length_cons]
                omega
              obtain ⟨items, after', rfl, hrest⟩ := ih after.length hlt hafter rfl
              refine ⟨.group b' inner :: items, after', by simp [wordsOf, Tree.words], ?_⟩
              simpa using hrest
            · simp at h
        | closing b' =>
            rw [forestFrom] at h
            split at h
            · next heq =>
              subst heq
              exact ⟨[], rest, rfl, by simpa using h⟩
            · simp at h
        | mark | spread | name | int | float | text =>
            rw [forestFrom] at h
            · obtain ⟨items, after, rfl, hafter⟩ := ih rest.length (by simp) h rfl
              exact ⟨.leaf _ :: items, after, rfl, by simpa using hafter⟩
            · simp
            · simp

/-- Outside of all brackets, words are read up to their end.  A bracket that opens is read with all
that stands in it, and one that closes has no place here. -/
theorem wordsOf_of_forestFrom {done : List Tree} {tokens : List Token} {trees : List Tree}
    (h : forestFrom [] done tokens = some trees) :
    ∃ items, tokens = wordsOf items ∧ trees = done.reverse ++ items := by
  induction hn : tokens.length using Nat.strongRecOn generalizing done tokens with
  | ind n ih =>
    subst hn
    cases tokens with
    | nil =>
        obtain rfl := by simpa [forestFrom] using h
        exact ⟨[], rfl, by simp⟩
    | cons t rest =>
        cases t with
        | opening b =>
            rw [forestFrom] at h
            split at h
            · obtain ⟨inner, after, rfl, hafter⟩ := exists_of_forestFrom h
              have hlt : after.length < (wordsOf inner ++ .closing b :: after).length + 1 := by
                simp only [List.length_append, List.length_cons]
                omega
              obtain ⟨items, rfl, rfl⟩ := ih after.length hlt hafter rfl
              exact ⟨.group b inner :: items, by simp [wordsOf, Tree.words], by simp⟩
            · simp at h
        | closing b => simp [forestFrom] at h
        | mark | spread | name | int | float | text =>
            rw [forestFrom] at h
            · obtain ⟨items, rfl, rfl⟩ := ih rest.length (by simp) h rfl
              exact ⟨.leaf _ :: items, rfl, by simp⟩
            · simp
            · simp

/-! ### Literals -/

/-- A word that is a literal by itself. -/
@[ext] structure ScalarWord where
  token : Token
  value : Value
  spells : token.scalar? = some value

/-- A literal as it is written, with all entries of an object. -/
inductive Literal where
  | word (w : ScalarWord)
  | variable (name : String)
  | list (items : List Literal)
  | object (entries : List (String × Literal))

namespace Literal

mutual

/-- What a literal stands for. -/
def value : Literal → Value
  | .word w => w.value
  | .variable name => .variable name
  | .list items => .list (values items)
  | .object entries => .object (Entries.ofList (entryValues entries))

def values : List Literal → List Value
  | [] => []
  | l :: ls => value l :: values ls

def entryValues : List (String × Literal) → List (String × Value)
  | [] => []
  | (k, l) :: es => (k, value l) :: entryValues es

end

mutual

/-- A literal in brackets and words. -/
def trees : Literal → List Tree
  | .word w => [.leaf w.token]
  | .variable name => [.leaf (.mark '$'), .leaf (.name name)]
  | .list items => [.group .square (itemTrees items)]
  | .object entries => [.group .curly (entryTrees entries)]

def itemTrees : List Literal → List Tree
  | [] => []
  | l :: ls => trees l ++ itemTrees ls

def entryTrees : List (String × Literal) → List Tree
  | [] => []
  | (k, l) :: es => .leaf (.name k) :: .leaf (.mark ':') :: (trees l ++ entryTrees es)

end

/-- The words of a literal. -/
def words (l : Literal) : List Token :=
  wordsOf l.trees

/-- The value of an object has the entries that were written, each with the value of its literal.
-/
theorem entryValues_eq_map (es : List (String × Literal)) :
    entryValues es = es.map fun e => (e.1, e.2.value) := by
  induction es with
  | nil => rfl
  | cons e es ih => rw [entryValues, ih, List.map_cons]

@[simp] theorem words_word (w : ScalarWord) : (word w).words = [w.token] := by
  simp [words, trees, wordsOf, Tree.words]

@[simp] theorem words_variable (name : String) :
    (Literal.variable name).words = [.mark '$', .name name] := by
  simp [words, trees, wordsOf, Tree.words]

@[simp] theorem words_list (ls : List Literal) :
    (list ls).words = .opening .square :: (wordsOf (itemTrees ls) ++ [.closing .square]) := by
  simp [words, trees, wordsOf, Tree.words]

@[simp] theorem words_object (es : List (String × Literal)) :
    (object es).words = .opening .curly :: (wordsOf (entryTrees es) ++ [.closing .curly]) := by
  simp [words, trees, wordsOf, Tree.words]

/-- The words of items stand one after the other, with nothing between them. -/
theorem wordsOf_itemTrees_cons (l : Literal) (ls : List Literal) :
    wordsOf (itemTrees (l :: ls)) = l.words ++ wordsOf (itemTrees ls) := by
  simp [itemTrees, words]

/-- An entry is written as its key, a colon and the words of what it holds. -/
theorem wordsOf_entryTrees_cons (key : String) (l : Literal) (es : List (String × Literal)) :
    wordsOf (entryTrees ((key, l) :: es)) =
      .name key :: .mark ':' :: (l.words ++ wordsOf (entryTrees es)) := by
  simp [entryTrees, words, wordsOf, Tree.words]

end Literal

namespace ScalarWord

variable (w : ScalarWord)

theorem token_ne_mark (c : Char) : w.token ≠ .mark c := by
  intro h
  simpa [h, Token.scalar?] using w.spells

theorem token_ne_opening (b : Bracket) : w.token ≠ .opening b := by
  intro h
  simpa [h, Token.scalar?] using w.spells

/-- A word that stands for a value is no bracket that closes, so that a list or an object ends
where its own bracket does. -/
theorem token_ne_closing (b : Bracket) : w.token ≠ .closing b := by
  intro h
  simpa [h, Token.scalar?] using w.spells

/-- Words that stand for values are told by their tokens. -/
theorem eq_of_token_eq {w w' : ScalarWord} (h : w.token = w'.token) : w = w' := by
  have hvalue : some w.value = some w'.value := by
    rw [← w.spells, ← w'.spells, h]
  exact ScalarWord.ext h (Option.some.inj hvalue)

/-- A single word spells no list and no object. -/
theorem value_ne_bracketed : (∀ vs, w.value ≠ .list vs) ∧ ∀ es, w.value ≠ .object es := by
  obtain ⟨token, value, spells⟩ := w
  cases token with
  | name s =>
      obtain rfl := Option.some.inj spells
      constructor
      · intro vs
        split_ifs <;> simp
      · intro es
        split_ifs <;> simp
  | int | float | text =>
      obtain rfl := Option.some.inj spells
      simp
  | mark | spread | opening | closing => simp [Token.scalar?] at spells

end ScalarWord

namespace Literal

/-- A literal whose value is an object of one entry names one key only, and the last entry
counts. -/
theorem exists_of_value_eq_object {l : Literal} {key : String} {v : Value}
    (h : l.value = .object [(key, v)]) :
    ∃ entries last, l = .object entries ∧ entries.getLast? = some (key, last) ∧
      (∀ e ∈ entries, e.1 = key) ∧ v = last.value := by
  cases l with
  | word w => exact absurd h (w.value_ne_bracketed.2 _)
  | «variable» name => simp [value] at h
  | list ls => simp [value] at h
  | object entries =>
      obtain ⟨hlast, hkeys⟩ := Entries.of_ofList_eq_singleton (Value.object.inj h)
      rw [entryValues_eq_map, List.getLast?_map] at hlast
      obtain ⟨⟨k, last⟩, hwritten, hentry⟩ := Option.map_eq_some_iff.1 hlast
      obtain ⟨rfl, rfl⟩ := Prod.mk.inj hentry
      refine ⟨entries, last, rfl, hwritten, ?_, rfl⟩
      intro e he
      refine hkeys (e.1, e.2.value) ?_
      rw [entryValues_eq_map]
      exact List.mem_map.2 ⟨e, he, rfl⟩

/-- A literal with a list for its value was written as a list, item by item. -/
theorem exists_of_value_eq_list {l : Literal} {vs : List Value} (h : l.value = .list vs) :
    ∃ ls, l = .list ls ∧ vs = values ls := by
  cases l with
  | word w => exact absurd h (w.value_ne_bracketed.1 _)
  | «variable» name => simp [value] at h
  | list ls => exact ⟨ls, rfl, (Value.list.inj h).symm⟩
  | object es => simp [value] at h

/-- No literal begins with a closing bracket. -/
theorem words_ne_closing (l : Literal) (b : Bracket) (xs ys : List Token) :
    l.words ++ xs ≠ .closing b :: ys := by
  cases l with
  | word w =>
      intro h
      obtain ⟨htoken, _⟩ := List.cons.inj (by simpa using h)
      exact w.token_ne_closing b htoken
  | «variable» _ => simp
  | list _ => simp
  | object _ => simp

mutual

/-- **The words of a literal leave no choice**: a text begins with the words of one literal at
most. -/
theorem words_append_inj : (l l' : Literal) → (xs ys : List Token) →
    l.words ++ xs = l'.words ++ ys → l = l' ∧ xs = ys
  | .word w, l', xs, ys, h => by
      cases l' with
      | word w' =>
          obtain ⟨htoken, hrest⟩ := List.cons.inj (by simpa using h)
          exact ⟨by rw [ScalarWord.eq_of_token_eq htoken], hrest⟩
      | «variable» _ => exact absurd (List.cons.inj (by simpa using h)).1 (w.token_ne_mark _)
      | list _ => exact absurd (List.cons.inj (by simpa using h)).1 (w.token_ne_opening _)
      | object _ => exact absurd (List.cons.inj (by simpa using h)).1 (w.token_ne_opening _)
  | .variable name, l', xs, ys, h => by
      cases l' with
      | word w => exact absurd (List.cons.inj (by simpa using h.symm)).1 (w.token_ne_mark _)
      | «variable» name' => simpa using h
      | list _ => simp at h
      | object _ => simp at h
  | .list ls, l', xs, ys, h => by
      cases l' with
      | word w => exact absurd (List.cons.inj (by simpa using h.symm)).1 (w.token_ne_opening _)
      | «variable» _ => simp at h
      | list ls' =>
          obtain ⟨rfl, rfl⟩ := itemTrees_append_inj ls ls' xs ys (by simpa using h)
          exact ⟨rfl, rfl⟩
      | object _ => simp at h
  | .object es, l', xs, ys, h => by
      cases l' with
      | word w => exact absurd (List.cons.inj (by simpa using h.symm)).1 (w.token_ne_opening _)
      | «variable» _ => simp at h
      | list _ => simp at h
      | object es' =>
          obtain ⟨rfl, rfl⟩ := entryTrees_append_inj es es' xs ys (by simpa using h)
          exact ⟨rfl, rfl⟩

/-- Items in a row leave no choice up to the bracket that closes them, by induction along the first
row. -/
theorem itemTrees_append_inj : (ls ls' : List Literal) → (xs ys : List Token) →
    wordsOf (itemTrees ls) ++ .closing .square :: xs =
      wordsOf (itemTrees ls') ++ .closing .square :: ys → ls = ls' ∧ xs = ys
  | [], [], xs, ys, h => ⟨rfl, by simpa [itemTrees, wordsOf] using h⟩
  | [], l' :: ls', xs, ys, h => by
      rw [wordsOf_itemTrees_cons, List.append_assoc] at h
      exact absurd h.symm (words_ne_closing l' _ _ _)
  | l :: ls, [], xs, ys, h => by
      rw [wordsOf_itemTrees_cons, List.append_assoc] at h
      exact absurd h (words_ne_closing l _ _ _)
  | l :: ls, l' :: ls', xs, ys, h => by
      rw [wordsOf_itemTrees_cons, wordsOf_itemTrees_cons, List.append_assoc,
        List.append_assoc] at h
      obtain ⟨rfl, hrest⟩ := words_append_inj l l' _ _ h
      obtain ⟨rfl, rfl⟩ := itemTrees_append_inj ls ls' xs ys hrest
      exact ⟨rfl, rfl⟩

/-- Entries in a row leave no choice either: a key stands in front of every one, and none in front
of the bracket. -/
theorem entryTrees_append_inj : (es es' : List (String × Literal)) → (xs ys : List Token) →
    wordsOf (entryTrees es) ++ .closing .curly :: xs =
      wordsOf (entryTrees es') ++ .closing .curly :: ys → es = es' ∧ xs = ys
  | [], [], xs, ys, h => ⟨rfl, by simpa [entryTrees, wordsOf] using h⟩
  | [], (key, l) :: es', xs, ys, h => by
      rw [wordsOf_entryTrees_cons] at h
      simp [entryTrees, wordsOf] at h
  | (key, l) :: es, [], xs, ys, h => by
      rw [wordsOf_entryTrees_cons] at h
      simp [entryTrees, wordsOf] at h
  | (key, l) :: es, (key', l') :: es', xs, ys, h => by
      rw [wordsOf_entryTrees_cons, wordsOf_entryTrees_cons] at h
      simp only [List.cons_append, List.append_assoc, List.cons.injEq, Token.name.injEq,
        true_and] at h
      obtain ⟨rfl, h⟩ := h
      obtain ⟨rfl, hrest⟩ := words_append_inj l l' _ _ h
      obtain ⟨rfl, rfl⟩ := entryTrees_append_inj es es' xs ys hrest
      exact ⟨rfl, rfl⟩

end

theorem entryTrees_inj {es es' : List (String × Literal)} (h : entryTrees es = entryTrees es') :
    es = es' :=
  (entryTrees_append_inj es es' [] [] (by rw [h])).1

mutual

/-- No round bracket is closed in a literal. -/
theorem closing_round_notMem_words : (l : Literal) → .closing .round ∉ l.words
  | .word w => by simpa using (w.token_ne_closing .round).symm
  | .variable name => by simp
  | .list ls => by simpa using closing_round_notMem_itemTrees ls
  | .object es => by simpa using closing_round_notMem_entryTrees es

theorem closing_round_notMem_itemTrees : (ls : List Literal) →
    .closing .round ∉ wordsOf (itemTrees ls)
  | [] => by simp [itemTrees, wordsOf]
  | l :: ls => by
      rw [wordsOf_itemTrees_cons, List.mem_append]
      rintro (h | h)
      · exact closing_round_notMem_words l h
      · exact closing_round_notMem_itemTrees ls h

theorem closing_round_notMem_entryTrees : (es : List (String × Literal)) →
    .closing .round ∉ wordsOf (entryTrees es)
  | [] => by simp [entryTrees, wordsOf]
  | (key, l) :: es => by
      rw [wordsOf_entryTrees_cons]
      simp only [List.mem_cons, reduceCtorEq, List.mem_append, false_or]
      rintro (h | h)
      · exact closing_round_notMem_words l h
      · exact closing_round_notMem_entryTrees es h

end

end Literal

/-! ### Reading -/

/-- Literals are read from the brackets and words of literals.  By induction along the reading,
with a case for each kind of item and, behind a key, for each kind of entry. -/
theorem literals?_entries?_written :
    (∀ ts vs, literals? ts = some vs → ∃ ls, ts = Literal.itemTrees ls ∧ vs = Literal.values ls) ∧
      ∀ ts es, entries? ts = some es →
        ∃ ls, ts = Literal.entryTrees ls ∧ es = Literal.entryValues ls := by
  apply literals?.mutual_induct
  -- the items of a list
  · intro vs h
    obtain rfl := by simpa [literals?] using h
    exact ⟨[], rfl, rfl⟩
  · intro name rest ih vs h
    rw [literals?] at h
    obtain ⟨vs', hrest, h⟩ := Option.bind_eq_some_iff.1 h
    obtain rfl := by simpa using h
    obtain ⟨ls, rfl, rfl⟩ := ih vs' hrest
    exact ⟨.variable name :: ls, rfl, rfl⟩
  · intro t rest hvariable ih vs h
    rw [literals?] at h
    · obtain ⟨v, hv, h⟩ := Option.bind_eq_some_iff.1 h
      obtain ⟨vs', hrest, h⟩ := Option.bind_eq_some_iff.1 h
      obtain rfl := by simpa using h
      obtain ⟨ls, rfl, rfl⟩ := ih vs' hrest
      exact ⟨.word ⟨t, v, hv⟩ :: ls, rfl, rfl⟩
    · exact hvariable
  · intro items rest ihItems ihRest vs h
    rw [literals?] at h
    obtain ⟨inner, hinner, h⟩ := Option.bind_eq_some_iff.1 h
    obtain ⟨vs', hrest, h⟩ := Option.bind_eq_some_iff.1 h
    obtain rfl := by simpa using h
    obtain ⟨ls, rfl, rfl⟩ := ihItems inner hinner
    obtain ⟨ls', rfl, rfl⟩ := ihRest vs' hrest
    exact ⟨.list ls :: ls', rfl, rfl⟩
  · intro items rest ihItems ihRest vs h
    rw [literals?] at h
    obtain ⟨inner, hinner, h⟩ := Option.bind_eq_some_iff.1 h
    obtain ⟨vs', hrest, h⟩ := Option.bind_eq_some_iff.1 h
    obtain rfl := by simpa using h
    obtain ⟨es, rfl, rfl⟩ := ihItems inner hinner
    obtain ⟨ls', rfl, rfl⟩ := ihRest vs' hrest
    exact ⟨.object es :: ls', rfl, rfl⟩
  · intro items rest vs h
    simp [literals?] at h
  -- the entries of an object
  · intro es h
    obtain rfl := by simpa [entries?] using h
    exact ⟨[], rfl, rfl⟩
  · intro key name rest ih es h
    rw [entries?] at h
    obtain ⟨es', hrest, h⟩ := Option.bind_eq_some_iff.1 h
    obtain rfl := by simpa using h
    obtain ⟨ls, rfl, rfl⟩ := ih es' hrest
    exact ⟨(key, .variable name) :: ls, rfl, rfl⟩
  · intro key t rest hvariable ih es h
    rw [entries?] at h
    · obtain ⟨v, hv, h⟩ := Option.bind_eq_some_iff.1 h
      obtain ⟨es', hrest, h⟩ := Option.bind_eq_some_iff.1 h
      obtain rfl := by simpa using h
      obtain ⟨ls, rfl, rfl⟩ := ih es' hrest
      exact ⟨(key, .word ⟨t, v, hv⟩) :: ls, rfl, rfl⟩
    · exact hvariable
  · intro key items rest ihItems ihRest es h
    rw [entries?] at h
    obtain ⟨inner, hinner, h⟩ := Option.bind_eq_some_iff.1 h
    obtain ⟨es', hrest, h⟩ := Option.bind_eq_some_iff.1 h
    obtain rfl := by simpa using h
    obtain ⟨ls, rfl, rfl⟩ := ihItems inner hinner
    obtain ⟨ls', rfl, rfl⟩ := ihRest es' hrest
    exact ⟨(key, .list ls) :: ls', rfl, rfl⟩
  · intro key items rest ihItems ihRest es h
    rw [entries?] at h
    obtain ⟨inner, hinner, h⟩ := Option.bind_eq_some_iff.1 h
    obtain ⟨es', hrest, h⟩ := Option.bind_eq_some_iff.1 h
    obtain rfl := by simpa using h
    obtain ⟨ls, rfl, rfl⟩ := ihItems inner hinner
    obtain ⟨ls', rfl, rfl⟩ := ihRest es' hrest
    exact ⟨(key, .object ls) :: ls', rfl, rfl⟩
  · intro ts hnil hvariable hword hlist hobject es h
    unfold entries? at h
    split at h
    · exact absurd rfl hnil
    · exact absurd rfl (hvariable _ _ _)
    · exact absurd rfl (hword _ _ _)
    · exact absurd rfl (hlist _ _ _)
    · exact absurd rfl (hobject _ _ _)
    · simp at h

/-- What is read as entries was written as entries, and the values that were read are those of the
literals that were written. -/
theorem exists_of_entries? {ts : List Tree} {es : List (String × Value)}
    (h : entries? ts = some es) :
    ∃ ls, ts = Literal.entryTrees ls ∧ es = Literal.entryValues ls :=
  literals?_entries?_written.2 ts es h

end Graphql

end GraphWarden
