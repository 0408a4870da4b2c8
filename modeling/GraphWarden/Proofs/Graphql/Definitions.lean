import GraphWarden.Graphql.TypeSystem
import GraphWarden.Proofs.Graphql.Written

/-!
# Definitions as they are written

Of the definition of a type its directives are kept, and their arguments with all repeats; only
the repeats inside an argument are gone when it has been read.  Here a definition is kept as it
was written (`TypeText`), its directives with literals for arguments (`DirectiveText`).

What a definition holds besides its directives is brackets, names and marks that cannot be
taken for one (`Tree.IsPlain`), so the directives of a definition are all that stand in it.  **A
schema text is a sequence of such definitions**, with others between them that are passed over
(`Definitions`, `definitions_of_typeSystem?`).
-/

namespace GraphWarden.Graphql

/-! ### Directives -/

/-- A directive as it is written. -/
structure DirectiveText where
  name : String
  arguments : List (String × Literal)

namespace DirectiveText

/-- A directive in brackets and words; without arguments it has no brackets either. -/
def trees (d : DirectiveText) : List Tree :=
  .leaf (.mark '@') :: .leaf (.name d.name) ::
    if d.arguments.isEmpty then [] else [.group .round (Literal.entryTrees d.arguments)]

/-- The directive that is read. -/
def directive (d : DirectiveText) : Directive :=
  ⟨d.name, Literal.entryValues d.arguments⟩

end DirectiveText

/-- Arguments are read from round brackets that are not empty. -/
theorem exists_of_arguments? {ts rest : List Tree} {arguments : List (String × Value)}
    (h : arguments? ts = some (arguments, rest)) :
    ∃ written : List (String × Literal),
      ts = (if written.isEmpty then [] else [.group .round (Literal.entryTrees written)]) ++ rest ∧
        arguments = Literal.entryValues written := by
  unfold arguments? at h
  split at h
  · next items ts =>
    split at h
    · simp at h
    · next hitems =>
      obtain ⟨es, hentries, hsame⟩ := Option.map_eq_some_iff.1 h
      obtain ⟨rfl, rfl⟩ := by simpa using hsame
      obtain ⟨written, rfl, rfl⟩ := exists_of_entries? hentries
      have hwritten : written.isEmpty = false := by
        cases written with
        | nil => exact absurd rfl hitems
        | cons e es => rfl
      exact ⟨written, by simp [hwritten], rfl⟩
  · obtain ⟨rfl, rfl⟩ := by simpa using h
    exact ⟨[], rfl, rfl⟩

/-- Directives that are read were written one after the other, and nothing between them is passed
over. -/
theorem exists_of_directivesWithin {fuel : Nat} {ts rest : List Tree} {ds : List Directive}
    (h : directivesWithin fuel ts = some (ds, rest)) :
    ∃ written : List DirectiveText, ts = written.flatMap DirectiveText.trees ++ rest ∧
      ds = written.map DirectiveText.directive := by
  induction fuel generalizing ts ds with
  | zero =>
      obtain ⟨rfl, rfl⟩ := by simpa [directivesWithin] using h
      exact ⟨[], rfl, rfl⟩
  | succ fuel ih =>
      unfold directivesWithin at h
      split at h
      · next name ts hfuel =>
        obtain rfl := Nat.succ.inj hfuel
        obtain ⟨⟨arguments, ts'⟩, harguments, h⟩ := Option.bind_eq_some_iff.1 h
        obtain ⟨⟨others, rest'⟩, hothers, h⟩ := Option.bind_eq_some_iff.1 h
        obtain ⟨rfl, rfl⟩ := by simpa using h
        obtain ⟨written, rfl, rfl⟩ := exists_of_arguments? harguments
        obtain ⟨more, rfl, rfl⟩ := ih hothers
        exact ⟨⟨name, written⟩ :: more, by simp [DirectiveText.trees], rfl⟩
      · obtain ⟨rfl, rfl⟩ := by simpa using h
        exact ⟨[], rfl, rfl⟩

/-- Directives that are read are read one by one, as many as there are. -/
theorem exists_of_directives? {ts rest : List Tree} {ds : List Directive}
    (h : directives? ts = some (ds, rest)) :
    ∃ written : List DirectiveText, ts = written.flatMap DirectiveText.trees ++ rest ∧
      ds = written.map DirectiveText.directive :=
  exists_of_directivesWithin h

/-! ### What else stands in a definition -/

/-- A tree that is no part of a directive. -/
def Tree.IsPlain : Tree → Prop
  | .leaf (.mark c) => c ≠ '@'
  | .group .round _ => False
  | .leaf _ | .group _ _ => True

/-- What is read is no directive and no part of one. -/
def ReadsPlain {α : Type} (read : Reads α) : Prop :=
  ∀ ts x rest, read ts = some (x, rest) → ∃ front, ts = front ++ rest ∧ ∀ t ∈ front, t.IsPlain

/-- Names with a separator between them hold no directive, as long as they are not separated by its
mark. -/
theorem readsPlain_namesRest {separator : Char} (hseparator : separator ≠ '@') (fuel : Nat) :
    ReadsPlain (namesRest separator fuel) := by
  induction fuel with
  | zero =>
      intro ts x rest h
      obtain ⟨rfl, rfl⟩ := by simpa [namesRest] using h
      exact ⟨[], rfl, by simp⟩
  | succ fuel ih =>
      intro ts x rest h
      unfold namesRest at h
      split at h
      · next fuel' c ts hfuel =>
        obtain rfl := Nat.succ.inj hfuel
        split at h
        · next hc =>
          subst hc
          split at h
          · next name ts =>
            obtain ⟨⟨names, ts'⟩, hnames, h⟩ := Option.bind_eq_some_iff.1 h
            obtain ⟨rfl, rfl⟩ := by simpa using h
            obtain ⟨front, rfl, hfront⟩ := ih ts names ts' hnames
            refine ⟨.leaf (.mark c) :: .leaf (.name name) :: front, rfl, ?_⟩
            simpa [Tree.IsPlain] using ⟨hseparator, hfront⟩
          · simp at h
        · obtain ⟨rfl, rfl⟩ := by simpa using h
          exact ⟨[], rfl, by simp⟩
      · obtain ⟨rfl, rfl⟩ := by simpa using h
        exact ⟨[], rfl, by simp⟩

/-- Names that may be missing hold no directive either. -/
theorem readsPlain_names? {separator : Char} (hseparator : separator ≠ '@') :
    ReadsPlain (names? separator) := by
  intro ts x rest h
  unfold names? at h
  simp only at h
  split at h
  · next name ts' hstart =>
    obtain ⟨⟨names, ts''⟩, hnames, h⟩ := Option.bind_eq_some_iff.1 h
    obtain ⟨rfl, rfl⟩ := by simpa using h
    obtain ⟨front, rfl, hfront⟩ := readsPlain_namesRest hseparator _ ts' names ts'' hnames
    have hplain : ∀ t ∈ .leaf (.name name) :: front, t.IsPlain := by
      simpa [Tree.IsPlain] using hfront
    split at hstart
    · next c ts =>
      split at hstart
      · next hc =>
        subst hc hstart
        refine ⟨.leaf (.mark c) :: .leaf (.name name) :: front, rfl, ?_⟩
        intro t ht
        rcases List.mem_cons.1 ht with rfl | ht
        · exact hseparator
        · exact hplain t ht
      · simp at hstart
    · subst hstart
      exact ⟨.leaf (.name name) :: front, rfl, hplain⟩
  · simp at h

/-- The interfaces of a type hold no directive. -/
theorem readsPlain_interfaces? : ReadsPlain interfaces? := by
  intro ts x rest h
  unfold interfaces? at h
  split at h
  · next ts =>
    obtain ⟨front, rfl, hfront⟩ := readsPlain_names? (by decide) ts x rest h
    refine ⟨.leaf (.name "implements") :: front, rfl, ?_⟩
    simpa [Tree.IsPlain] using hfront
  · obtain ⟨rfl, rfl⟩ := by simpa using h
    exact ⟨[], rfl, by simp⟩

/-- The members of a union hold no directive, since a bar stands between them. -/
theorem readsPlain_members? : ReadsPlain members? := by
  intro ts x rest h
  unfold members? at h
  split at h
  · next ts =>
    obtain ⟨front, rfl, hfront⟩ := readsPlain_names? (by decide) ts x rest h
    refine ⟨.leaf (.mark '=') :: front, rfl, ?_⟩
    simpa [Tree.IsPlain] using hfront
  · obtain ⟨rfl, rfl⟩ := by simpa using h
    exact ⟨[], rfl, by simp⟩

/-- The body of a definition holds no directive of the definition, because it stands in brackets of
its own. -/
theorem readsPlain_body? {α : Type} (item : Reads α) : ReadsPlain (body? item) := by
  intro ts x rest h
  unfold body? at h
  split at h
  · next items ts =>
    obtain ⟨_, _, hsame⟩ := Option.map_eq_some_iff.1 h
    obtain ⟨rfl, rfl⟩ := by simpa using hsame
    exact ⟨[.group .curly items], rfl, by simp [Tree.IsPlain]⟩
  · obtain ⟨rfl, rfl⟩ := by simpa using h
    exact ⟨[], rfl, by simp⟩

/-! ### Definitions -/

/-- The word that a kind of types is defined with. -/
def Shape.word : Shape → String
  | .object _ => "type"
  | .interface _ => "interface"
  | .union _ => "union"

/-- The definition of a type as it is written. -/
structure TypeText where
  description : Option String
  word : String
  name : String
  /-- What stands between the name and the directives. -/
  before : List Tree
  directives : List DirectiveText
  /-- What stands behind the directives. -/
  after : List Tree
  before_plain : ∀ t ∈ before, t.IsPlain
  after_plain : ∀ t ∈ after, t.IsPlain

namespace TypeText

/-- A definition in brackets and words. -/
def trees (w : TypeText) : List Tree :=
  (w.description.toList.map fun s => Tree.leaf (.text s)) ++
    .leaf (.name w.word) :: .leaf (.name w.name) ::
      (w.before ++ w.directives.flatMap DirectiveText.trees ++ w.after)

/-- What is declared has the kind and the name that are written, and the directives. -/
structure Declares (w : TypeText) (d : TypeDeclaration) : Prop where
  word : d.shape.word = w.word
  name : d.name = w.name
  directives : d.directives = w.directives.map DirectiveText.directive

end TypeText

/-- The definitions of types in a schema text, in order.  Other definitions are passed over. -/
inductive Definitions : List Tree → List TypeText → Prop where
  | done : Definitions [] []
  | passed {ts rest : List Tree} {ws : List TypeText} :
      systemDefinition? ts = some (none, rest) → Definitions rest ws → Definitions ts ws
  | kept {w : TypeText} {d : TypeDeclaration} {rest : List Tree} {ws : List TypeText} :
      systemDefinition? (w.trees ++ rest) = some (some d, rest) → Definitions rest ws →
      Definitions (w.trees ++ rest) (w :: ws)

/-- A definition that adds something is of one of three kinds, and its word says of which. -/
theorem Additions.word_of_shape? {a : Additions} {word : String} {shape : Shape}
    (h : a.shape? word = some shape) :
    shape.word = word ∧ (word = "type" ∨ word = "interface" ∨ word = "union") := by
  unfold Additions.shape? at h
  split at h
  · next hword =>
    obtain rfl := Option.some.inj h
    exact ⟨hword.symm, Or.inl hword⟩
  · split at h
    · next hword =>
      obtain rfl := Option.some.inj h
      exact ⟨hword.symm, Or.inr (Or.inl hword)⟩
    · split at h
      · next hword =>
        obtain rfl := Option.some.inj h
        exact ⟨hword.symm, Or.inr (Or.inr hword)⟩
      · simp at h

/-- What follows the name of a type of a kept kind: its directives, with nothing around them that
could be taken for one. -/
theorem exists_of_additions? {word : String} {ts rest : List Tree} {a : Additions}
    (hkept : word = "type" ∨ word = "interface" ∨ word = "union")
    (h : additions? word ts = some (a, rest)) :
    ∃ (before after : List Tree) (written : List DirectiveText),
      ts = before ++ written.flatMap DirectiveText.trees ++ after ++ rest ∧
      (∀ t ∈ before, t.IsPlain) ∧ (∀ t ∈ after, t.IsPlain) ∧
      a.directives = written.map DirectiveText.directive := by
  unfold additions? at h
  by_cases hbracketed : (word = "type" || word = "interface") = true
  · rw [if_pos hbracketed] at h
    obtain ⟨⟨names, ts₁⟩, hinterfaces, h⟩ := Option.bind_eq_some_iff.1 h
    obtain ⟨⟨ds, ts₂⟩, hdirectives, h⟩ := Option.bind_eq_some_iff.1 h
    obtain ⟨⟨hasBody, ts₃⟩, hbody, h⟩ := Option.bind_eq_some_iff.1 h
    obtain ⟨rfl, rfl⟩ := by simpa using h
    obtain ⟨before, rfl, hbefore⟩ := readsPlain_interfaces? ts names ts₁ hinterfaces
    obtain ⟨written, rfl, rfl⟩ := exists_of_directives? hdirectives
    obtain ⟨after, rfl, hafter⟩ := readsPlain_body? _ ts₂ hasBody ts₃ hbody
    exact ⟨before, after, written, by simp, hbefore, hafter, rfl⟩
  · have hunion : word = "union" := by
      rcases hkept with rfl | rfl | hunion
      · exact absurd rfl hbracketed
      · exact absurd rfl hbracketed
      · exact hunion
    rw [if_neg hbracketed, if_pos hunion] at h
    obtain ⟨⟨ds, ts₁⟩, hdirectives, h⟩ := Option.bind_eq_some_iff.1 h
    obtain ⟨⟨members, ts₂⟩, hmembers, h⟩ := Option.bind_eq_some_iff.1 h
    obtain ⟨rfl, rfl⟩ := by simpa using h
    obtain ⟨written, rfl, rfl⟩ := exists_of_directives? hdirectives
    obtain ⟨after, rfl, hafter⟩ := readsPlain_members? ts₁ members ts₂ hmembers
    exact ⟨[], after, written, by simp, by simp, hafter, rfl⟩

/-- A description in front of a definition is one text, or there is none. -/
theorem exists_of_skipDescription (ts : List Tree) : ∃ description : Option String,
    ts = (description.toList.map fun s => Tree.leaf (.text s)) ++ skipDescription ts := by
  unfold skipDescription
  split
  · next s ts => exact ⟨some s, rfl⟩
  · exact ⟨none, rfl⟩

/-- A definition that is kept is written as the definition of a type. -/
theorem exists_of_systemDefinition? {ts rest : List Tree} {d : TypeDeclaration}
    (h : systemDefinition? ts = some (some d, rest)) :
    ∃ w : TypeText, ts = w.trees ++ rest ∧ w.Declares d := by
  unfold systemDefinition? at h
  split at h
  · obtain ⟨_, _, hnone⟩ := Option.map_eq_some_iff.1 h
    simp at hnone
  · obtain ⟨_, _, hnone⟩ := Option.map_eq_some_iff.1 h
    simp at hnone
  · obtain ⟨description, hdescription⟩ := exists_of_skipDescription ts
    split at h
    · obtain ⟨_, _, hnone⟩ := Option.map_eq_some_iff.1 h
      simp at hnone
    · unfold typeDefinition? at h
      split at h
      · next word name ts' hstart =>
        obtain ⟨⟨a, rest'⟩, hadditions, h⟩ := Option.bind_eq_some_iff.1 h
        obtain ⟨hkind, rfl⟩ := Prod.mk.inj (Option.some.inj h)
        obtain ⟨shape, hshape, rfl⟩ := Option.map_eq_some_iff.1 hkind
        obtain ⟨hword, hkept⟩ := Additions.word_of_shape? hshape
        obtain ⟨before, after, written, rfl, hbefore, hafter, hwritten⟩ :=
          exists_of_additions? hkept hadditions
        refine ⟨⟨description, word, name, before, written, after, hbefore, hafter⟩, ?_,
          ⟨hword, rfl, hwritten⟩⟩
        rw [hdescription, hstart]
        simp [TypeText.trees]
      · simp at h

/-! ### One way to write a definition -/

/-- Directives are not followed by round brackets, because these would be their arguments. -/
theorem directives_append_ne_round {ds : List DirectiveText} {after items more : List Tree}
    (hafter : ∀ t ∈ after, t.IsPlain) :
    ds.flatMap DirectiveText.trees ++ after ≠ .group .round items :: more := by
  intro h
  cases ds with
  | nil =>
      obtain rfl : after = .group .round items :: more := h
      exact hafter _ List.mem_cons_self
  | cons d ds => simp [DirectiveText.trees] at h

/-- Nothing that is plain begins a directive. -/
theorem eq_nil_of_flatMap_plain (front : List Tree) {ds : List DirectiveText}
    {after whole : List Tree} (hwhole : ∀ t ∈ whole, t.IsPlain)
    (h : whole = front ++ (ds.flatMap DirectiveText.trees ++ after)) : ds = [] := by
  cases ds with
  | nil => rfl
  | cons d ds =>
      have hmark : Tree.leaf (.mark '@') ∈ whole := by simp [h, DirectiveText.trees]
      exact absurd rfl (hwhole _ hmark)

/-- Directives with nothing but plain trees behind them leave no choice: each starts with its mark,
which no plain tree is. -/
theorem directives_append_inj {ds ds' : List DirectiveText} {after after' : List Tree}
    (hafter : ∀ t ∈ after, t.IsPlain) (hafter' : ∀ t ∈ after', t.IsPlain)
    (h : ds.flatMap DirectiveText.trees ++ after = ds'.flatMap DirectiveText.trees ++ after') :
    ds = ds' := by
  induction ds generalizing ds' with
  | nil => exact (eq_nil_of_flatMap_plain [] hafter h).symm
  | cons d ds ih =>
      cases ds' with
      | nil => exact eq_nil_of_flatMap_plain [] hafter' h.symm
      | cons d' ds' =>
          obtain ⟨name, arguments⟩ := d
          obtain ⟨name', arguments'⟩ := d'
          simp only [List.flatMap_cons, DirectiveText.trees, List.cons_append, List.append_assoc,
            List.cons.injEq, Tree.leaf.injEq, Token.name.injEq, true_and] at h
          obtain ⟨rfl, h⟩ := h
          cases arguments with
          | nil =>
              cases arguments' with
              | nil => rw [ih (by simpa using h)]
              | cons e es => exact absurd (by simpa using h) (directives_append_ne_round hafter)
          | cons e es =>
              cases arguments' with
              | nil =>
                  exact absurd (by simpa using h.symm) (directives_append_ne_round hafter')
              | cons e' es' =>
                  simp only [List.isEmpty_cons, Bool.false_eq_true, if_false, List.cons_append,
                    List.nil_append, List.cons.injEq, Tree.group.injEq, true_and] at h
                  rw [Literal.entryTrees_inj h.1, ih h.2]

/-- **Directives are told from what they stand between**, when that is plain. -/
theorem directives_inj {before before' after after' : List Tree} {ds ds' : List DirectiveText}
    (hbefore : ∀ t ∈ before, t.IsPlain) (hbefore' : ∀ t ∈ before', t.IsPlain)
    (hafter : ∀ t ∈ after, t.IsPlain) (hafter' : ∀ t ∈ after', t.IsPlain)
    (h : before ++ (ds.flatMap DirectiveText.trees ++ after) =
      before' ++ (ds'.flatMap DirectiveText.trees ++ after')) : ds = ds' := by
  induction before generalizing before' with
  | nil =>
      cases before' with
      | nil => exact directives_append_inj hafter hafter' h
      | cons t before' =>
          cases ds with
          | nil => exact (eq_nil_of_flatMap_plain (t :: before') hafter h).symm
          | cons d ds =>
              obtain ⟨rfl, _⟩ := List.cons.inj h
              exact absurd rfl (hbefore' _ List.mem_cons_self)
  | cons t before ih =>
      cases before' with
      | nil =>
          cases ds' with
          | nil => exact eq_nil_of_flatMap_plain (t :: before) hafter' h.symm
          | cons d' ds' =>
              obtain ⟨rfl, _⟩ := List.cons.inj h
              exact absurd rfl (hbefore _ List.mem_cons_self)
      | cons t' before' =>
          obtain ⟨_, hrest⟩ := List.cons.inj h
          exact ih (fun u hu => hbefore u (List.mem_cons_of_mem t hu))
            (fun u hu => hbefore' u (List.mem_cons_of_mem t' hu)) hrest

/-- **The words of a definition tell what is written**: its kind, its name and its directives. -/
theorem TypeText.eq_of_trees_eq {w w' : TypeText} (h : w.trees = w'.trees) :
    w.word = w'.word ∧ w.name = w'.name ∧ w.directives = w'.directives := by
  obtain ⟨description, word, name, before, ds, after, hbefore, hafter⟩ := w
  obtain ⟨description', word', name', before', ds', after', hbefore', hafter'⟩ := w'
  have hnamed : word = word' ∧ name = name' ∧
      before ++ (ds.flatMap DirectiveText.trees ++ after) =
        before' ++ (ds'.flatMap DirectiveText.trees ++ after') := by
    cases description <;> cases description' <;> simp_all [trees]
  obtain ⟨rfl, rfl, hrest⟩ := hnamed
  exact ⟨rfl, rfl, directives_inj hbefore hbefore' hafter hafter' hrest⟩

/-! ### Sequences of definitions -/

/-- What is read as definitions is a sequence of definitions. -/
theorem definitions_of_everyWithin {fuel : Nat} {ts : List Tree}
    {read : List (Option TypeDeclaration)}
    (h : everyWithin systemDefinition? fuel ts = some read) : ∃ ws, Definitions ts ws := by
  induction fuel generalizing ts read with
  | zero =>
      cases ts with
      | nil => exact ⟨[], .done⟩
      | cons t ts => simp [everyWithin] at h
  | succ fuel ih =>
      cases ts with
      | nil => exact ⟨[], .done⟩
      | cons t ts =>
          rw [everyWithin] at h
          obtain ⟨⟨first, rest⟩, hfirst, h⟩ := Option.bind_eq_some_iff.1 h
          obtain ⟨others, hothers, h⟩ := Option.bind_eq_some_iff.1 h
          obtain ⟨ws, hdefinitions⟩ := ih hothers
          cases first with
          | none => exact ⟨ws, .passed hfirst hdefinitions⟩
          | some d =>
              obtain ⟨w, hw, _⟩ := exists_of_systemDefinition? hfirst
              rw [hw] at hfirst ⊢
              exact ⟨w :: ws, .kept hfirst hdefinitions⟩

theorem systemDefinition?_nil : systemDefinition? [] = none := rfl

/-- Reading goes on behind the first definition. -/
theorem exists_of_everyWithin {fuel : Nat} {ts rest : List Tree} {first : Option TypeDeclaration}
    {read : List (Option TypeDeclaration)} (hfirst : systemDefinition? ts = some (first, rest))
    (h : everyWithin systemDefinition? fuel ts = some read) :
    ∃ more fuel', everyWithin systemDefinition? fuel' rest = some more ∧ read = first :: more := by
  cases ts with
  | nil =>
      rw [systemDefinition?_nil] at hfirst
      simp at hfirst
  | cons t ts =>
      cases fuel with
      | zero => simp [everyWithin] at h
      | succ fuel =>
          rw [everyWithin] at h
          obtain ⟨⟨first', rest'⟩, hfirst', h⟩ := Option.bind_eq_some_iff.1 h
          obtain ⟨rfl, rfl⟩ := Prod.mk.inj (Option.some.inj (hfirst.symm.trans hfirst'))
          obtain ⟨more, hmore, h⟩ := Option.bind_eq_some_iff.1 h
          exact ⟨more, fuel, hmore, (Option.some.inj h).symm⟩

/-- Whatever way a text is taken as a sequence of definitions, they are declared as they are
written. -/
theorem Definitions.declares {ts : List Tree} {ws : List TypeText} (h : Definitions ts ws)
    {fuel : Nat} {read : List (Option TypeDeclaration)}
    (hread : everyWithin systemDefinition? fuel ts = some read) :
    List.Forall₂ TypeText.Declares ws (read.filterMap id) := by
  induction h generalizing fuel read with
  | done =>
      obtain rfl : read = [] := by simpa [everyWithin] using hread.symm
      exact .nil
  | passed hfirst _ ih =>
      obtain ⟨more, fuel', hrest, rfl⟩ := exists_of_everyWithin hfirst hread
      have hmore := ih hrest
      exact hmore
  | @kept w d rest ws hfirst _ ih =>
      obtain ⟨more, fuel', hrest, rfl⟩ := exists_of_everyWithin hfirst hread
      obtain ⟨w', htrees, hdeclares⟩ := exists_of_systemDefinition? hfirst
      obtain ⟨hword, hname, hdirectives⟩ :=
        TypeText.eq_of_trees_eq (List.append_cancel_right htrees)
      refine .cons ⟨?_, ?_, ?_⟩ (ih hrest)
      · exact hdeclares.word.trans hword.symm
      · exact hdeclares.name.trans hname.symm
      · exact hdeclares.directives.trans (by rw [hdirectives])

/-- **A schema text is a sequence of definitions, in one way**, and those of types are declared as
they are written, up to the repeats in their arguments. -/
theorem definitions_of_typeSystem? {s : String} {ds : List TypeDeclaration}
    (h : typeSystem? s = some ds) :
    ∃ trees, read? s = some trees ∧ (∃ ws, Definitions trees ws) ∧
      ∀ ws, Definitions trees ws → List.Forall₂ TypeText.Declares ws ds := by
  obtain ⟨read, hread, rfl⟩ := Option.map_eq_some_iff.1 h
  obtain ⟨trees, htrees, hevery⟩ := Option.bind_eq_some_iff.1 hread
  cases trees with
  | nil => simp [everyOne] at hevery
  | cons t ts =>
      obtain ⟨ws, hdefinitions⟩ := definitions_of_everyWithin hevery
      exact ⟨t :: ts, htrees, ⟨ws, hdefinitions⟩, fun ws' hws' => hws'.declares hevery⟩

end GraphWarden.Graphql
