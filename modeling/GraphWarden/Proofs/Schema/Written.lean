import Mathlib.Data.List.Nodup
import Mathlib.Data.List.Perm.Subperm
import GraphWarden.Schema.Document
import GraphWarden.Proofs.Graphql.Definitions
import GraphWarden.Proofs.Schema.Accepted

/-!
# Rules in schema texts

A rule is written as an argument of a directive on a type: an object with one key, and under it a
text or further rules.  On the way to a schema three things are told apart by name, and where a
name is repeated one of them is dropped without a word: of several directives on a type the first
counts, of several arguments for one operation the last, and of several entries of an object for
one key the last.

So **every rule that is written is declared exactly when no two rules compete**
(`rules_kept_iff_unrivalled`).  The rules of a type are taken as they are written
(`TypeText.rules`), and each of them must be found among those that are declared
(`TypeText.AllKept`), with its connectives and texts (`Literal.Spells`).
-/

namespace GraphWarden

namespace Graphql.Literal

/-! ### Rules that a literal writes -/

mutual

/-- No object in the literal names a key twice. -/
def KeysDistinct : Literal → Prop
  | .word _ | .variable _ => True
  | .list ls => ItemsDistinct ls
  | .object es => (es.map Prod.fst).Nodup ∧ EntriesDistinct es

def ItemsDistinct : List Literal → Prop
  | [] => True
  | l :: ls => KeysDistinct l ∧ ItemsDistinct ls

def EntriesDistinct : List (String × Literal) → Prop
  | [] => True
  | (_, l) :: es => KeysDistinct l ∧ EntriesDistinct es

end

mutual

/-- The literal writes a declaration, with its connectives and texts, and nothing besides. -/
inductive Spells : Literal → Rule.Declaration → Prop where
  | rule {l : Literal} {s : String} : l.value.asText = some s →
      Spells (.object [("rule", l)]) (.rule s)
  | all {ls : List Literal} {ds : List Rule.Declaration} : SpellsEach ls ds →
      Spells (.object [("and", .list ls)]) (.all ds)
  | any {ls : List Literal} {ds : List Rule.Declaration} : SpellsEach ls ds →
      Spells (.object [("or", .list ls)]) (.any ds)
  | not {l : Literal} {d : Rule.Declaration} : Spells l d →
      Spells (.object [("not", l)]) (.not d)

inductive SpellsEach : List Literal → List Rule.Declaration → Prop where
  | nil : SpellsEach [] []
  | cons {l : Literal} {d : Rule.Declaration} {ls : List Literal} {ds : List Rule.Declaration} :
      Spells l d → SpellsEach ls ds → SpellsEach (l :: ls) (d :: ds)

end

/-- A text has no keys, so none of them is repeated. -/
theorem keysDistinct_of_asText {l : Literal} {s : String} (h : l.value.asText = some s) :
    l.KeysDistinct := by
  cases l with
  | word w => simp [KeysDistinct]
  | «variable» name => simp [KeysDistinct]
  | list ls => simp [value, Value.asText] at h
  | object es => simp [value, Value.asText] at h

mutual

/-- What writes a declaration repeats no key. -/
theorem Spells.keysDistinct {l : Literal} {d : Rule.Declaration} : Spells l d → l.KeysDistinct
  | .rule h => by simpa [KeysDistinct, EntriesDistinct] using keysDistinct_of_asText h
  | .all h => by simpa [KeysDistinct, EntriesDistinct] using h.itemsDistinct
  | .any h => by simpa [KeysDistinct, EntriesDistinct] using h.itemsDistinct
  | .not h => by simpa [KeysDistinct, EntriesDistinct] using h.keysDistinct

/-- Where rules are spelled out one by one, no key is repeated inside any of them. -/
theorem SpellsEach.itemsDistinct {ls : List Literal} {ds : List Rule.Declaration} :
    SpellsEach ls ds → ItemsDistinct ls
  | .nil => by simp [ItemsDistinct]
  | .cons h hs => by simpa [ItemsDistinct] using ⟨h.keysDistinct, hs.itemsDistinct⟩

end

/-- An object that repeats no key is written with the entries that it has. -/
theorem KeysDistinct.exists_of_value_eq {l : Literal} {key : String} {v : Value}
    (h : l.KeysDistinct) (hvalue : l.value = .object [(key, v)]) :
    ∃ w, l = .object [(key, w)] ∧ v = w.value ∧ w.KeysDistinct := by
  obtain ⟨entries, last, rfl, hlast, hkeys, rfl⟩ := exists_of_value_eq_object hvalue
  rw [KeysDistinct] at h
  obtain ⟨hnodup, hdistinct⟩ := h
  have hone : entries = [(key, last)] := by
    match entries with
    | [] => simp at hlast
    | [e] => simpa using hlast
    | e :: e' :: rest =>
        have hsame : e.1 = e'.1 := (hkeys e (by simp)).trans (hkeys e' (by simp)).symm
        simp [hsame] at hnodup
  subst hone
  rw [EntriesDistinct] at hdistinct
  exact ⟨last, rfl, rfl, hdistinct.1⟩

end Graphql.Literal

open Graphql

namespace Rule.Declaration

/-- What is listed under a key is a list, and each of its items declares a rule. -/
theorem exists_of_listed {key : String} {v : Value} {ds : List Declaration}
    (h : listed key v = .ok ds) : ∃ items, v = .list items ∧ ofValues items = .ok ds := by
  unfold listed at h
  split at h
  · next items => exact ⟨items, rfl, h⟩
  · simp at h

/-- The ways in which a value declares a rule: an object with one entry, whose key says whether it
holds a text, several declarations, or a single one that is negated. -/
theorem ofValue_cases {v : Value} {d : Declaration} (h : ofValue v = .ok d) :
    (∃ inner s, v = .object [("rule", inner)] ∧ inner.asText = some s ∧ d = .rule s) ∨
      (∃ items ds, v = .object [("and", .list items)] ∧ ofValues items = .ok ds ∧ d = .all ds) ∨
      (∃ items ds, v = .object [("or", .list items)] ∧ ofValues items = .ok ds ∧ d = .any ds) ∨
      ∃ inner d', v = .object [("not", inner)] ∧ ofValue inner = .ok d' ∧ d = .not d' := by
  unfold ofValue at h
  split at h
  · next key inner =>
    split at h
    · next hkey =>
      subst hkey
      split at h
      · next s hs =>
        obtain rfl := Except.ok.inj h
        exact Or.inl ⟨inner, s, rfl, hs, rfl⟩
      · simp at h
    · split at h
      · next hkey =>
        subst hkey
        obtain ⟨ds, hlisted, rfl⟩ := exists_of_map_eq_ok h
        obtain ⟨items, rfl, hds⟩ := exists_of_listed hlisted
        exact Or.inr (Or.inl ⟨items, ds, rfl, hds, rfl⟩)
      · split at h
        · next hkey =>
          subst hkey
          obtain ⟨ds, hlisted, rfl⟩ := exists_of_map_eq_ok h
          obtain ⟨items, rfl, hds⟩ := exists_of_listed hlisted
          exact Or.inr (Or.inr (Or.inl ⟨items, ds, rfl, hds, rfl⟩))
        · split at h
          · next hkey =>
            subst hkey
            obtain ⟨d', hd', rfl⟩ := exists_of_map_eq_ok h
            exact Or.inr (Or.inr (Or.inr ⟨inner, d', rfl, hd', rfl⟩))
          · simp at h
  · simp at h
  · simp at h

mutual

/-- A literal without repeated keys that declares a rule writes it. -/
theorem spells_of_ofValue : (l : Literal) → (d : Declaration) → ofValue l.value = .ok d →
    l.KeysDistinct → l.Spells d
  | l, d, h, hdistinct => by
      rcases ofValue_cases h with ⟨inner, s, hv, htext, rfl⟩ | ⟨items, ds, hv, hds, rfl⟩ |
        ⟨items, ds, hv, hds, rfl⟩ | ⟨inner, d', hv, hd', rfl⟩
      · obtain ⟨w, rfl, rfl, _⟩ := hdistinct.exists_of_value_eq hv
        exact .rule htext
      · obtain ⟨w, rfl, hw, hitems⟩ := hdistinct.exists_of_value_eq hv
        obtain ⟨ls, rfl, rfl⟩ := Literal.exists_of_value_eq_list hw.symm
        exact .all (spellsEach_of_ofValues ls ds hds (by simpa [Literal.KeysDistinct] using hitems))
      · obtain ⟨w, rfl, hw, hitems⟩ := hdistinct.exists_of_value_eq hv
        obtain ⟨ls, rfl, rfl⟩ := Literal.exists_of_value_eq_list hw.symm
        exact .any (spellsEach_of_ofValues ls ds hds (by simpa [Literal.KeysDistinct] using hitems))
      · obtain ⟨w, rfl, rfl, hinner⟩ := hdistinct.exists_of_value_eq hv
        exact .not (spells_of_ofValue w d' hd' hinner)

/-- A list that declares rules spells them out, as long as no key is repeated inside: item by item,
by recursion with the rules themselves. -/
theorem spellsEach_of_ofValues : (ls : List Literal) → (ds : List Declaration) →
    ofValues (Literal.values ls) = .ok ds → Literal.ItemsDistinct ls → Literal.SpellsEach ls ds
  | [], ds, h, _ => by
      obtain rfl := by simpa [Literal.values, ofValues] using h
      exact .nil
  | l :: ls, ds, h, hdistinct => by
      rw [Literal.values, ofValues] at h
      obtain ⟨d, hd, h⟩ := exists_of_bind_eq_ok h
      obtain ⟨rest, hrest, h⟩ := exists_of_bind_eq_ok h
      obtain rfl := Except.ok.inj h
      rw [Literal.ItemsDistinct] at hdistinct
      exact .cons (spells_of_ofValue l d hd hdistinct.1)
        (spellsEach_of_ofValues ls rest hrest hdistinct.2)

end

end Rule.Declaration

/-! ### Slots -/

namespace Slots

variable {α : Type}

/-- What is there, with its operation, in the order of the operations. -/
def pairs (s : Slots α) : List (Operation × α) :=
  Operation.every.filterMap fun op => (s.get? op).map fun a => (op, a)

/-- Put one thing after the other, each for its operation. -/
def putAll (s : Slots α) (read : List (Operation × α)) : Slots α :=
  read.foldl (fun s r => s.put r.1 r.2) s

/-- The pairs of a table are the operations with what stands under them. -/
theorem mem_pairs_iff {s : Slots α} {op : Operation} {a : α} :
    (op, a) ∈ s.pairs ↔ s.get? op = some a := by
  rw [pairs, List.mem_filterMap]
  constructor
  · rintro ⟨op', _, h⟩
    obtain ⟨a', ha', hsame⟩ := Option.map_eq_some_iff.1 h
    obtain ⟨rfl, rfl⟩ := Prod.mk.inj hsame
    exact ha'
  · intro h
    exact ⟨op, Operation.mem_every op, by simp [h]⟩

/-- An operation occurs once among them. -/
theorem nodup_pairs (s : Slots α) : (s.pairs.map Prod.fst).Nodup := by
  have hfst : s.pairs.map Prod.fst = Operation.every.filter fun op => (s.get? op).isSome := by
    rw [pairs]
    induction Operation.every with
    | nil => rfl
    | cons op ops ih => cases hop : s.get? op <;> simp [hop, ih]
  rw [hfst]
  exact List.Nodup.filter _ (by decide)

/-- What stands under an operation stays there when things are put under others. -/
theorem get?_putAll_of_notMem {read : List (Operation × α)} {op : Operation}
    (h : op ∉ read.map Prod.fst) (s : Slots α) : (s.putAll read).get? op = s.get? op := by
  induction read generalizing s with
  | nil => rfl
  | cons r read ih =>
      rw [List.map_cons, List.mem_cons, not_or] at h
      have hrest := ih h.2 (s.put r.1 r.2)
      rw [get?_put, if_neg (Ne.symm h.1)] at hrest
      exact hrest

/-- Where no operation is named twice, each finds its own thing under it. -/
theorem get?_putAll_of_mem {read : List (Operation × α)} {op : Operation} {a : α}
    (hnodup : (read.map Prod.fst).Nodup) (h : (op, a) ∈ read) (s : Slots α) :
    (s.putAll read).get? op = some a := by
  induction read generalizing s with
  | nil => simp at h
  | cons r read ih =>
      rw [List.map_cons, List.nodup_cons] at hnodup
      rcases List.mem_cons.1 h with rfl | h
      · have hrest := get?_putAll_of_notMem hnodup.1 (s.put op a)
        rw [get?_put, if_pos rfl] at hrest
        exact hrest
      · exact ih hnodup.2 h (s.put r.1 r.2)

/-- Whatever stands under an operation in the end was put there, or stood there before. -/
theorem mem_of_get?_putAll {read : List (Operation × α)} {op : Operation} {a : α} {s : Slots α}
    (h : (s.putAll read).get? op = some a) : (op, a) ∈ read ∨ s.get? op = some a := by
  induction read generalizing s with
  | nil => exact Or.inr h
  | cons r read ih =>
      rcases ih h with hmem | hput
      · exact Or.inl (List.mem_cons_of_mem r hmem)
      · rw [get?_put] at hput
        split at hput
        · next heq =>
          obtain rfl := Option.some.inj hput
          exact Or.inl (by simp [← heq])
        · exact Or.inr hput

/-- What was put for different operations is there, and nothing else. -/
theorem pairs_putAll_perm {read : List (Operation × α)} (h : (read.map Prod.fst).Nodup) :
    read.Perm (Slots.empty.putAll read).pairs := by
  refine (List.perm_ext_iff_of_nodup h.of_map (nodup_pairs _).of_map).2 ?_
  rintro ⟨op, a⟩
  rw [mem_pairs_iff]
  constructor
  · intro hmem
    exact get?_putAll_of_mem h hmem _
  · intro hget
    exact (mem_of_get?_putAll hget).resolve_right (by simp)

/-- There is not more than was put. -/
theorem length_pairs_putAll_le (read : List (Operation × α)) :
    (Slots.empty.putAll read).pairs.length ≤ read.length := by
  have hsubset : (Slots.empty.putAll read).pairs.map Prod.fst ⊆ read.map Prod.fst := by
    intro op hop
    obtain ⟨⟨op', a⟩, hmem, rfl⟩ := List.mem_map.1 hop
    have hread := (mem_of_get?_putAll (mem_pairs_iff.1 hmem)).resolve_right (by simp)
    exact List.mem_map_of_mem hread
  have hle := (List.subperm_of_subset (nodup_pairs _) hsubset).length_le
  simpa using hle

end Slots

/-! ### Rules of a type -/

/-- The word that a kind of types is defined with. -/
def TypeKind.word : TypeKind → String
  | .object => "type"
  | .interface => "interface"
  | .union => "union"

/-- The rules that are declared on a type, each with its operation. -/
def TypeDefinition.declared (t : TypeDefinition) : List (Operation × Rule.Declaration) :=
  (t.rules.getD Slots.empty).pairs

/-- An argument is read as a declaration for an operation. -/
def IsReadAs (a : String × Literal) (r : Operation × Rule.Declaration) : Prop :=
  Operation.ofName? a.1 = some r.1 ∧ Rule.Declaration.ofValue a.2.value = .ok r.2

/-- An argument writes a declaration for an operation, with its connectives and texts, and nothing
besides. -/
def IsWrittenAs (a : String × Literal) (r : Operation × Rule.Declaration) : Prop :=
  Operation.ofName? a.1 = some r.1 ∧ a.2.Spells r.2

namespace Graphql.TypeText

/-- The directives that hold rules. -/
def auths (w : TypeText) : List DirectiveText :=
  w.directives.filter fun d => d.name == "auth"

/-- The rules that are written on a type: the arguments of its directives. -/
def rules (w : TypeText) : List (String × Literal) :=
  w.auths.flatMap DirectiveText.arguments

/-- The rules that count: the arguments of the first directive. -/
def firstRules (w : TypeText) : List (String × Literal) :=
  (w.auths.head?.map DirectiveText.arguments).getD []

/-- No two rules compete: all are written in one directive, for different operations, and none of
them names a key twice. -/
structure Unrivalled (w : TypeText) : Prop where
  only : ∀ d ∈ w.auths.tail, d.arguments = []
  once : (w.rules.map Prod.fst).Nodup
  single : ∀ a ∈ w.rules, a.2.KeysDistinct

/-- The rules that are written are those that are declared, one for one. -/
def AllKept (w : TypeText) (t : TypeDefinition) : Prop :=
  ∃ kept, List.Forall₂ IsWrittenAs w.rules kept ∧ kept.Perm t.declared

end Graphql.TypeText

/-- An operation that is read from a name has that name. -/
theorem Operation.name_of_ofName? {s : String} {op : Operation} (h : ofName? s = some op) :
    op.name = s := by
  simpa using List.find?_some h

namespace SchemaDefinition

/-- Arguments are read as declarations, and put one after the other. -/
theorem exists_of_rulesOf {typeName : String} {arguments : List (String × Value)}
    {slots : Slots Rule.Declaration} (h : rulesOf typeName arguments = .ok slots) :
    ∃ read : List (Operation × Rule.Declaration),
      List.Forall₂ (fun a r => Operation.ofName? a.1 = some r.1 ∧
        Rule.Declaration.ofValue a.2 = .ok r.2) arguments read ∧
      slots = Slots.empty.putAll read := by
  unfold rulesOf at h
  generalize Slots.empty = start at h ⊢
  induction arguments generalizing start with
  | nil =>
      obtain rfl := Except.ok.inj h
      exact ⟨[], .nil, rfl⟩
  | cons a arguments ih =>
      obtain ⟨middle, hstep, hrest⟩ := foldlM_cons_eq_ok_iff.1 h
      obtain ⟨read, hread, rfl⟩ := ih middle hrest
      obtain ⟨name, v⟩ := a
      simp only at hstep
      split at hstep
      · simp at hstep
      · next op hop =>
        split at hstep
        · simp at hstep
        · next d hd =>
          obtain rfl := Except.ok.inj hstep
          exact ⟨(op, d) :: read, .cons ⟨hop, hd⟩ hread, rfl⟩

/-- The definition of a type with given rules. -/
def typeWith (d : TypeDeclaration) (rules : Option (Slots Rule.Declaration)) : TypeDefinition :=
  match d.shape with
  | .object interfaces => { name := d.name, kind := .object, interfaces, rules }
  | .interface interfaces => { name := d.name, kind := .interface, interfaces, rules }
  | .union members => { name := d.name, kind := .union, members, rules }

/-- A type that is declared keeps its name, its kind and the rules that were read for it, whichever
kind it is of. -/
theorem typeWith_of_kinds (d : TypeDeclaration) (rules : Option (Slots Rule.Declaration)) :
    (typeWith d rules).name = d.name ∧ (typeWith d rules).kind.word = d.shape.word ∧
      (typeWith d rules).rules = rules := by
  unfold typeWith
  cases d.shape <;> exact ⟨rfl, rfl, rfl⟩

/-- The first directive of a type counts. -/
theorem typeOf_cases {d : TypeDeclaration} {t : TypeDefinition} (h : typeOf d = .ok t) :
    (d.directives.find? (fun x => x.name == "auth") = none ∧ t = typeWith d none) ∨
      ∃ directive slots, d.directives.find? (fun x => x.name == "auth") = some directive ∧
        rulesOf d.name directive.arguments = .ok slots ∧ t = typeWith d (some slots) := by
  unfold typeOf at h
  simp only at h
  split at h
  · next hfind => exact Or.inl ⟨hfind, (Except.ok.inj h).symm⟩
  · next directive hfind =>
    obtain ⟨rules, hrules, h⟩ := exists_of_bind_eq_ok h
    obtain ⟨slots, hslots, rfl⟩ := exists_of_map_eq_ok hrules
    exact Or.inr ⟨directive, slots, hfind, hslots, (Except.ok.inj h).symm⟩

/-- The type that is declared has the name and the kind that are written, and the rules of the
first directive. -/
theorem exists_of_typeOf {w : TypeText} {d : TypeDeclaration} {t : TypeDefinition}
    (hdeclares : w.Declares d) (h : typeOf d = .ok t) :
    t.name = w.name ∧ t.kind.word = w.word ∧
      ∃ read, List.Forall₂ IsReadAs w.firstRules read ∧
        t.declared = (Slots.empty.putAll read).pairs := by
  have hfind : d.directives.find? (fun x => x.name == "auth") =
      w.auths.head?.map DirectiveText.directive := by
    rw [hdeclares.directives, List.find?_map, TypeText.auths, List.head?_filter]
    rfl
  rcases typeOf_cases h with ⟨hnone, rfl⟩ | ⟨directive, slots, hsome, hslots, rfl⟩
  · obtain ⟨hname, hkind, hrules⟩ := typeWith_of_kinds d none
    rw [hnone] at hfind
    have hhead : w.auths.head? = none := Option.map_eq_none_iff.1 hfind.symm
    refine ⟨hname.trans hdeclares.name, hkind.trans hdeclares.word, [], ?_, ?_⟩
    · simp [TypeText.firstRules, hhead]
    · rw [TypeDefinition.declared, hrules]
      rfl
  · obtain ⟨hname, hkind, hrules⟩ := typeWith_of_kinds d (some slots)
    rw [hsome] at hfind
    obtain ⟨first, hhead, rfl⟩ := Option.map_eq_some_iff.1 hfind.symm
    obtain ⟨read, hread, rfl⟩ := exists_of_rulesOf hslots
    refine ⟨hname.trans hdeclares.name, hkind.trans hdeclares.word, read, ?_, ?_⟩
    · rw [DirectiveText.directive, Literal.entryValues_eq_map, List.forall₂_map_left_iff] at hread
      have hfirst : w.firstRules = first.arguments := by
        rw [TypeText.firstRules, hhead]
        rfl
      rw [hfirst]
      exact hread
    · rw [TypeDefinition.declared, hrules]
      rfl

end SchemaDefinition

namespace Graphql.TypeText

variable {w : TypeText} {t : TypeDefinition} {read : List (Operation × Rule.Declaration)}

/-- The rules of a type are those of the first directive, which counts, and those of all further
ones, which do not. -/
theorem rules_eq (w : TypeText) :
    w.rules = w.firstRules ++ w.auths.tail.flatMap DirectiveText.arguments := by
  cases hauths : w.auths <;> simp [rules, firstRules, hauths]

/-- Arguments that were read as rules bear the names of their operations. -/
theorem names_eq {R : String × Literal → Operation × Rule.Declaration → Prop}
    (hR : ∀ a r, R a r → Operation.ofName? a.1 = some r.1) {arguments : List (String × Literal)}
    (h : List.Forall₂ R arguments read) :
    arguments.map Prod.fst = (read.map Prod.fst).map Operation.name := by
  induction h with
  | nil => rfl
  | cons har _ ih =>
      rw [List.map_cons, List.map_cons, List.map_cons, ih, Operation.name_of_ofName? (hR _ _ har)]

/-- Where no rules compete, each is kept. -/
theorem Unrivalled.allKept (h : w.Unrivalled) (hread : List.Forall₂ IsReadAs w.firstRules read)
    (hdeclared : t.declared = (Slots.empty.putAll read).pairs) : w.AllKept t := by
  have hfirst : w.rules = w.firstRules := by
    have hnone : w.auths.tail.flatMap DirectiveText.arguments = [] :=
      List.flatMap_eq_nil_iff.2 h.only
    rw [rules_eq, hnone, List.append_nil]
  have hwritten : List.Forall₂ IsWrittenAs w.rules read := by
    rw [← hfirst] at hread
    refine ((List.forall₂_and_left _ _).2 ⟨h.single, hread⟩).imp ?_
    rintro a r ⟨hdistinct, hop, hd⟩
    exact ⟨hop, Rule.Declaration.spells_of_ofValue a.2 r.2 hd hdistinct⟩
  have hnodup : (read.map Prod.fst).Nodup := by
    have honce := h.once
    rw [names_eq (fun _ _ h => h.1) hwritten] at honce
    exact honce.of_map
  refine ⟨read, hwritten, ?_⟩
  rw [hdeclared]
  exact Slots.pairs_putAll_perm hnodup

/-- Where each rule is kept, none compete. -/
theorem AllKept.unrivalled (h : w.AllKept t) (hread : List.Forall₂ IsReadAs w.firstRules read)
    (hdeclared : t.declared = (Slots.empty.putAll read).pairs) : w.Unrivalled := by
  obtain ⟨kept, hkept, hperm⟩ := h
  rw [hdeclared] at hperm
  refine ⟨?_, ?_, ?_⟩
  · -- what is declared was read from the first directive, so there is no room for more
    have hle : w.rules.length ≤ w.firstRules.length :=
      calc w.rules.length
        _ = kept.length := hkept.length_eq
        _ = (Slots.empty.putAll read).pairs.length := hperm.length_eq
        _ ≤ read.length := Slots.length_pairs_putAll_le read
        _ = w.firstRules.length := hread.length_eq.symm
    rw [rules_eq, List.length_append] at hle
    have hnone : w.auths.tail.flatMap DirectiveText.arguments = [] :=
      List.length_eq_zero_iff.1 (by omega)
    exact List.flatMap_eq_nil_iff.1 hnone
  · rw [names_eq (fun _ _ h => h.1) hkept]
    have hnodup : (kept.map Prod.fst).Nodup :=
      (hperm.map Prod.fst).nodup_iff.2 (Slots.nodup_pairs _)
    exact hnodup.map Operation.name_injective
  · have hdistinct : List.Forall₂ (fun a r => a.2.KeysDistinct ∧ IsWrittenAs a r) w.rules kept :=
      hkept.imp fun a r har => ⟨har.2.keysDistinct, har⟩
    exact ((List.forall₂_and_left _ _).1 hdistinct).1

end Graphql.TypeText

/-- Types are declared one by one, as they are written. -/
theorem kept_iff_of_mapM {ws : List TypeText} {ds : List TypeDeclaration}
    {types : List TypeDefinition} (hdeclares : List.Forall₂ TypeText.Declares ws ds)
    (h : ds.mapM SchemaDefinition.typeOf = .ok types) :
    List.Forall₂ (fun w t => t.name = w.name ∧ t.kind.word = w.word ∧
      (w.AllKept t ↔ w.Unrivalled)) ws types := by
  induction hdeclares generalizing types with
  | nil =>
      obtain rfl := Except.ok.inj h
      exact .nil
  | cons hd _ ih =>
      rw [List.mapM_cons] at h
      obtain ⟨t, ht, h⟩ := exists_of_bind_eq_ok h
      obtain ⟨ts, hts, h⟩ := exists_of_bind_eq_ok h
      obtain rfl := Except.ok.inj h
      obtain ⟨hname, hkind, read, hread, hdeclared⟩ := SchemaDefinition.exists_of_typeOf hd ht
      refine .cons ⟨hname, hkind, ?_⟩ (ih hts)
      constructor
      · intro hkept
        exact hkept.unrivalled hread hdeclared
      · intro hunrivalled
        exact hunrivalled.allKept hread hdeclared

/-- **Every rule of a schema text is kept exactly when no two of them compete.**  An accepted text
is a sequence of definitions, and each type of the schema stands for one of them, with its name and
kind.  All rules that are written on it are declared, one for one, with their connectives and
texts, exactly when they are written in one directive, for different operations, and with no key
repeated in them; otherwise at least one is lost. -/
theorem rules_kept_iff_unrivalled {s : String} {schema : SchemaDefinition}
    (h : SchemaDefinition.ofText s = .ok schema) :
    ∃ trees, read? s = some trees ∧ (∃ ws, Definitions trees ws) ∧
      ∀ ws, Definitions trees ws → List.Forall₂ (fun w t => t.name = w.name ∧
        t.kind.word = w.word ∧ (w.AllKept t ↔ w.Unrivalled)) ws schema.types := by
  unfold SchemaDefinition.ofText at h
  split at h
  · simp at h
  · next declarations hdeclarations =>
    obtain ⟨types, htypes, h⟩ := exists_of_bind_eq_ok h
    obtain ⟨trees, hread, hexists, hdeclares⟩ := definitions_of_typeSystem? hdeclarations
    refine ⟨trees, hread, hexists, ?_⟩
    intro ws hws
    have hsame : schema.types = types := by
      split at h
      · simp at h
      · rw [← Except.ok.inj h]
    rw [hsame]
    exact kept_iff_of_mapM (hdeclares ws hws) htypes

/-- A text with one definition in it. -/
theorem definitions_of_alone {w : TypeText}
    (h : ((systemDefinition? w.trees).any fun read => read.1.isSome && read.2.isEmpty) = true) :
    Definitions w.trees [w] := by
  obtain ⟨⟨first, rest⟩, hread, h⟩ := (Option.any_eq_true _ _).1 h
  rw [Bool.and_eq_true, Option.isSome_iff_exists, List.isEmpty_iff] at h
  obtain ⟨⟨d, rfl⟩, rfl⟩ := h
  rw [← List.append_nil w.trees] at hread
  simpa using Definitions.kept hread .done

/-- The rule that somebody is an administrator. -/
def isAdmin : Literal :=
  .object [("rule", .word ⟨.text "\x7b$ROLE: \x7beq: ADMIN\x7d\x7d", _, rfl⟩)]

/-- The rules of a type in two directives. -/
def apart : TypeText where
  description := none
  word := "type"
  name := "Note"
  before := []
  directives := [⟨"auth", [("query", isAdmin)]⟩, ⟨"auth", [("delete", isAdmin)]⟩]
  after := []
  before_plain := by simp
  after_plain := by simp

def apartText : String :=
  "type Note @auth(query: \x7brule: \"\x7b$ROLE: \x7beq: ADMIN\x7d\x7d\"\x7d) " ++
    "@auth(delete: \x7brule: \"\x7b$ROLE: \x7beq: ADMIN\x7d\x7d\"\x7d)"

/-- The text of the example is read as the trees that it is made of. -/
theorem read?_apartText : read? apartText = some apart.trees := by
  rfl

/-- The rules of the second directive are lost, and nobody is kept from deleting notes. -/
theorem apart_loses_rule :
    ∃ schema t, SchemaDefinition.ofText apartText = .ok schema ∧ schema.types = [t] ∧
      read? apartText = some apart.trees ∧ Definitions apart.trees [apart] ∧
      (t.rules.getD Slots.empty).delete.isNone = true ∧ ¬ apart.AllKept t := by
  have hcheck : ((SchemaDefinition.ofText apartText).toOption.any fun schema =>
      schema.types.length == 1 && schema.types.all fun t =>
        (t.rules.getD Slots.empty).delete.isNone && t.declared.length == 1) = true := by
    decide +kernel
  obtain ⟨schema, hschema, hcheck⟩ := (Option.any_eq_true _ _).1 hcheck
  rw [toOption_eq_some_iff] at hschema
  rw [Bool.and_eq_true, beq_iff_eq, List.length_eq_one_iff] at hcheck
  obtain ⟨⟨t, ht⟩, hall⟩ := hcheck
  rw [ht, List.all_cons, List.all_nil, Bool.and_true, Bool.and_eq_true, beq_iff_eq] at hall
  obtain ⟨hdelete, hone⟩ := hall
  refine ⟨schema, t, hschema, ht, read?_apartText, definitions_of_alone (by decide +kernel),
    hdelete, ?_⟩
  rintro ⟨kept, hkept, hperm⟩
  have htwo : apart.rules.length = 2 := by decide +kernel
  have hlength : apart.rules.length = t.declared.length :=
    hkept.length_eq.trans hperm.length_eq
  rw [htwo, hone] at hlength
  simp at hlength

/-- The same rules in one directive. -/
def together : TypeText where
  description := none
  word := "type"
  name := "Note"
  before := []
  directives := [⟨"auth", [("query", isAdmin), ("delete", isAdmin)]⟩]
  after := []
  before_plain := by simp
  after_plain := by simp

def togetherText : String :=
  "type Note @auth(query: \x7brule: \"\x7b$ROLE: \x7beq: ADMIN\x7d\x7d\"\x7d, " ++
    "delete: \x7brule: \"\x7b$ROLE: \x7beq: ADMIN\x7d\x7d\"\x7d)"

/-- In one directive both are kept. -/
theorem together_keeps_rules :
    ∃ schema t, SchemaDefinition.ofText togetherText = .ok schema ∧ schema.types = [t] ∧
      together.AllKept t := by
  have haccepted : (SchemaDefinition.ofText togetherText).isOk = true := by decide +kernel
  cases hschema : SchemaDefinition.ofText togetherText with
  | error problem => simp [hschema, Except.isOk, Except.toBool] at haccepted
  | ok schema =>
      obtain ⟨trees, hread, _, hall⟩ := rules_kept_iff_unrivalled hschema
      obtain rfl : together.trees = trees := Option.some.inj hread
      have halone := hall [together] (definitions_of_alone (by decide +kernel))
      obtain ⟨t, more, ⟨_, _, hiff⟩, hmore, htypes⟩ := List.forall₂_cons_left_iff.1 halone
      obtain rfl := List.forall₂_nil_left_iff.1 hmore
      refine ⟨schema, t, rfl, htypes, hiff.2 ⟨?_, by decide +kernel, ?_⟩⟩
      · simp [TypeText.auths, together]
      · simp [TypeText.rules, TypeText.auths, together, isAdmin, Literal.KeysDistinct,
          Literal.EntriesDistinct]

end GraphWarden
