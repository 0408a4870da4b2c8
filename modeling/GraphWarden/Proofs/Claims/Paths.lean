import GraphWarden.Claims
import GraphWarden.Proofs.Json.Paths

/-!
# Claims and the key paths of a payload

The keys of a key path, joined by dots, are a claim's name, and different paths may have the same
name: of `a`, `b.c` and of `a.b`, `c` it is `a.b.c`.

**The claims of a payload name exactly the key paths of the object that its namespace selects, and
each name holds what stands at the end of the last of its paths**, where paths are compared key by
key (`Claims.ofPayload_flattens`).  For claims are put in one after the other in the order of the
walk, in which the paths rise, and of several with one name the last stays.
-/

namespace GraphWarden

namespace Entries

variable {α : Type} {key : String} {value : α} {pairs : Entries α}

/-- The first entry with a key is what a search for the key finds. -/
theorem find?_eq_map (key : String) (entries : Entries α) :
    find? key entries = (List.find? (fun e => decide (e.1 = key)) entries).map Prod.snd := by
  induction entries with
  | nil => rfl
  | cons e entries ih =>
      by_cases hkey : e.1 = key
      · simp [find?, hkey]
      · simp [find?, hkey, ih]

/-- The last entry with a key has no other entry with this key behind it. -/
theorem find?_reverse_eq_some_iff : find? key pairs.reverse = some value ↔
    ∃ before after, pairs = before ++ (key, value) :: after ∧ ∀ e ∈ after, e.1 ≠ key := by
  rw [find?_eq_map, Option.map_eq_some_iff]
  constructor
  · rintro ⟨e, he, rfl⟩
    obtain ⟨hkey, after, before, heq, hafter⟩ := List.find?_eq_some_iff_append.1 he
    obtain rfl := of_decide_eq_true hkey
    refine ⟨before.reverse, after.reverse, ?_, ?_⟩
    · simpa using congrArg List.reverse heq
    · intro e' he'
      simpa using hafter e' (List.mem_reverse.1 he')
  · rintro ⟨before, after, rfl, hafter⟩
    refine ⟨(key, value), List.find?_eq_some_iff_append.2 ⟨by simp, after.reverse, before.reverse,
      by simp, ?_⟩, rfl⟩
    intro e he
    simpa using hafter e (List.mem_reverse.1 he)

end Entries

namespace Claim

/-- The claim of a datum at the end of a path. -/
def ofEnd (j : Json) : Claim :=
  (ofJson? j).getD .null

/-- A datum without parts is a claim of its own. -/
theorem ofScalar?_of_isScalar {j : Json} (h : j.isScalar = true) :
    ∃ c, ofScalar? j = some c ∧ c.toValue = Value.ofJson j := by
  cases j with
  | null | flag _ | float _ | text _ => exact ⟨_, rfl, rfl⟩
  | int i =>
      refine ⟨ofInt i, rfl, ?_⟩
      unfold ofInt Value.ofJson
      split <;> rfl
  | list items => cases h
  | object entries => cases h

theorem ofScalar?_of_not_isScalar {j : Json} (h : j.isScalar = false) : ofScalar? j = none := by
  cases j with
  | list items => rfl
  | object entries => rfl
  | null | flag _ | int _ | float _ | text _ => cases h

/-- Of a list the single claims are kept, in their order, and anything else in it is dropped. -/
theorem toValues_filterMap_ofScalar? (items : List Json) :
    toValues (items.filterMap ofScalar?) = Value.ofJsonItems (items.filter Json.isScalar) := by
  induction items with
  | nil => rfl
  | cons j items ih =>
      cases hscalar : j.isScalar with
      | true =>
          obtain ⟨c, hc, hvalue⟩ := ofScalar?_of_isScalar hscalar
          rw [List.filterMap_cons_some hc, List.filter_cons_of_pos hscalar, toValues,
            Value.ofJsonItems, hvalue, ih]
      | false =>
          rw [List.filterMap_cons_none (ofScalar?_of_not_isScalar hscalar),
            List.filter_cons_of_neg (by simp [hscalar]), ih]

/-- The claim holds the datum, of a list what is neither a list nor an object. -/
theorem toValue_ofEnd {j : Json} (h : j.isObject = false) :
    (ofEnd j).toValue = Value.ofJson j.pruned := by
  cases j with
  | list items => exact congrArg Value.list (toValues_filterMap_ofScalar? items)
  | object entries => cases h
  | null | flag _ | float _ | text _ => rfl
  | int i =>
      obtain ⟨c, hc, hvalue⟩ := ofScalar?_of_isScalar (j := .int i) rfl
      have hend : ofEnd (.int i) = c := congrArg (fun found => found.getD .null) hc
      exact hend.symm ▸ hvalue

end Claim

namespace Claims

/-- The name of a key path: its keys, joined by dots. -/
def dotted (path : List String) : String :=
  ".".intercalate path

/-- What the end of a key path claims. -/
def claimed (e : List String × Json) : String × Claim :=
  (dotted e.1, Claim.ofEnd e.2)

/-- What the claims of a payload are read from: the payload itself, or what it holds under a
namespace that is not empty. -/
def source? (space : Option String) (payload : Json) : Option Json :=
  match space with
  | .none => some payload
  | some name => if name = "" then some payload else payload.child? name

/-- The claims are those of the key paths of a datum. -/
structure Flattens (S : Json) (cs : Claims) : Prop where
  /-- The names are those of the paths. -/
  has_iff : ∀ name, cs.has name = true ↔ ∃ path v, S.Leads path v ∧ dotted path = name
  /-- A name holds what stands at the end of the last of its paths. -/
  find?_iff : ∀ name w, (cs.find? name).map Claim.toValue = some w ↔
    ∃ path v, S.Leads path v ∧ dotted path = name ∧
      (∀ path' v', S.Leads path' v' → dotted path' = name → ¬ path < path') ∧
      w = Value.ofJson v.pruned

/-! ### The leaves of a walk -/

theorem dotted_below (path : Option String) (key : String) (keys : List String) :
    dotted (below path key :: keys) = dotted (path.toList ++ key :: keys) := by
  cases path <;> rfl

mutual

/-- The claims below a name are the ends of the datum there, each under its key path joined by
dots. -/
theorem leavesAt_eq (name : String) : (j : Json) →
    leavesAt name j = j.ends.map fun e => (dotted (name :: e.1), Claim.ofEnd e.2)
  | .object entries => leaves_eq (some name) entries
  | .null | .flag _ | .int _ | .float _ | .text _ | .list _ => rfl

/-- The leaves of an object are those of its entries, below a path that may still be empty. -/
theorem leaves_eq (path : Option String) : (es : List (String × Json)) →
    leaves path es =
      (Json.endsOf es).map fun e => (dotted (path.toList ++ e.1), Claim.ofEnd e.2)
  | [] => rfl
  | (key, j) :: es => by
      rw [leaves, leavesAt_eq, leaves_eq, Json.endsOf, List.map_append, List.map_map]
      simp only [dotted_below, Function.comp_def]

end

/-- What a claim's name holds is what was put in last under that name. -/
theorem find?_ofEntries (name : String) (es : List (String × Json)) :
    (ofEntries es).find? name = Entries.find? name ((Json.endsOf es).map claimed).reverse := by
  have hleaves : leaves .none es = (Json.endsOf es).map claimed := leaves_eq .none es
  rw [← hleaves]
  exact Entries.find?_ofList name (leaves .none es)

/-- In a rising walk the last of the ends with one name is the one with the last path. -/
theorem find?_claimed_iff {walk : List (List String × Json)} (hwalk : Json.Ascending walk)
    {name : String} {c : Claim} :
    Entries.find? name (walk.map claimed).reverse = some c ↔
      ∃ e ∈ walk, claimed e = (name, c) ∧ ∀ e' ∈ walk, dotted e'.1 = name → ¬ e.1 < e'.1 := by
  rw [Entries.find?_reverse_eq_some_iff]
  constructor
  · rintro ⟨before, after, heq, hafter⟩
    obtain ⟨front, back, rfl, rfl, hback⟩ := List.map_eq_append_iff.1 heq
    obtain ⟨e, rest, rfl, he, rfl⟩ := List.map_eq_cons_iff.1 hback
    refine ⟨e, by simp, he, ?_⟩
    intro e' he' hname hlt
    have hbefore := (List.pairwise_append.1 hwalk).2.2
    rcases List.mem_append.1 he' with he' | he'
    · exact lt_asymm hlt (hbefore e' he' e List.mem_cons_self)
    · rcases List.mem_cons.1 he' with rfl | he'
      · exact lt_irrefl _ hlt
      · exact hafter (claimed e') (List.mem_map_of_mem he') hname
  · rintro ⟨e, he, hclaimed, hlast⟩
    -- What is walked behind the last path has a later path, and so another name.
    obtain ⟨front, rest, rfl⟩ := List.append_of_mem he
    refine ⟨front.map claimed, rest.map claimed, by simp [hclaimed], ?_⟩
    intro e' he' hname
    obtain ⟨e'', hmem, rfl⟩ := List.mem_map.1 he'
    have hlater := (List.pairwise_cons.1 (List.pairwise_append.1 hwalk).2.1).1 e'' hmem
    exact hlast e'' (List.mem_append_right _ (List.mem_cons_of_mem _ hmem)) hname hlater

/-- The claims of a normalized object flatten it.  Each name that is claimed comes from a key path,
and of several paths with one name the last one counts, because the ends are listed with rising
paths. -/
theorem flattens_ofEntries {S : Json} {inner : List (String × Json)}
    (hS : S.normalized = .object inner) : Flattens S (ofEntries inner) := by
  have hends : ∀ path v, (path, v) ∈ Json.endsOf inner ↔
      ∃ last, S.Leads path last ∧ last.normalized = v := by
    intro path v
    rw [← Json.mem_ends_iff, hS, Json.ends]
  have hwalk : Json.Ascending (Json.endsOf inner) := by
    have h := Json.ends_ascending S
    rwa [hS] at h
  constructor
  · intro name
    rw [has, find?_ofEntries]
    constructor
    · intro h
      obtain ⟨c, hc⟩ := Option.isSome_iff_exists.1 h
      obtain ⟨⟨path, v⟩, he, hclaimed, -⟩ := (find?_claimed_iff hwalk).1 hc
      obtain ⟨last, hleads, -⟩ := (hends path v).1 he
      exact ⟨path, last, hleads, congrArg Prod.fst hclaimed⟩
    · rintro ⟨path, last, hleads, rfl⟩
      have he := (hends path _).2 ⟨last, hleads, rfl⟩
      exact Entries.isSome_find?_of_mem (List.mem_reverse.2 (List.mem_map_of_mem (f := claimed) he))
  · intro name w
    rw [Option.map_eq_some_iff]
    simp only [find?_ofEntries, find?_claimed_iff hwalk]
    constructor
    · rintro ⟨c, ⟨⟨path, v⟩, he, hclaimed, hlast⟩, rfl⟩
      obtain ⟨last, hleads, rfl⟩ := (hends path v).1 he
      obtain ⟨hname, rfl⟩ := Prod.mk.inj hclaimed
      refine ⟨path, last, hleads, hname, ?_, ?_⟩
      · intro path' v' hleads' hname'
        exact hlast _ ((hends path' _).2 ⟨v', hleads', rfl⟩) hname'
      · rw [Claim.toValue_ofEnd ((Json.isObject_normalized last).trans hleads.not_isObject),
          Json.pruned_normalized hleads.not_isObject]
    · rintro ⟨path, last, hleads, hname, hlast, rfl⟩
      refine ⟨Claim.ofEnd last.normalized, ⟨(path, last.normalized),
        (hends path _).2 ⟨last, hleads, rfl⟩, Prod.ext hname rfl, ?_⟩, ?_⟩
      · rintro ⟨path', v'⟩ he' hname'
        obtain ⟨last', hleads', -⟩ := (hends path' v').1 he'
        exact hlast path' last' hleads' hname'
      · rw [Claim.toValue_ofEnd ((Json.isObject_normalized last).trans hleads.not_isObject),
          Json.pruned_normalized hleads.not_isObject]

/-! ### The claims of a payload -/

section Payload

variable {space : Option String} {entries : List (String × Json)} {S : Json}

/-- The claims are read from the source, when it is an object. -/
theorem ofPayload_eq : ofPayload space (.object entries) =
    match (source? space (.object entries)).map Json.normalized with
    | .none => .ok none
    | some (.object inner) => .ok (ofEntries inner)
    | some _ => .error (.namespaceNotObject (space.getD "")) := by
  cases space with
  | none => rfl
  | some name =>
      by_cases hname : name = ""
      · subst hname
        rfl
      · have hspace : (some name).filter (fun name => name ≠ "") = some name := by simp [hname]
        simp only [ofPayload, Json.normalized, hspace, Json.find?_entries_normalized, source?,
          if_neg hname]
        rfl

/-- Only what stands under a namespace is a source and not an object. -/
theorem source?_not_isObject (hsource : source? space (.object entries) = some S)
    (hS : S.isObject = false) :
    ∃ name, space = some name ∧ name ≠ "" ∧ (Json.object entries).child? name = some S := by
  have hpayload : some (Json.object entries) ≠ some S := by
    intro h
    obtain rfl := Option.some.inj h
    cases hS
  cases space with
  | none => exact absurd hsource hpayload
  | some name =>
      by_cases hname : name = ""
      · rw [source?, if_pos hname] at hsource
        exact absurd hsource hpayload
      · rw [source?, if_neg hname] at hsource
        exact ⟨name, rfl, hname, hsource⟩

/-- Where the namespace selects an object, its flattened entries are the claims. -/
theorem ofPayload_of_source?_object {inner : List (String × Json)}
    (hsource : source? space (.object entries) = some S) (hS : S.normalized = .object inner) :
    ofPayload space (.object entries) = .ok (ofEntries inner) := by
  rw [ofPayload_eq, hsource, Option.map_some, hS]

/-- Where it selects something else, the payload is refused with the name of the namespace. -/
theorem ofPayload_of_source?_not_isObject (hsource : source? space (.object entries) = some S)
    (hS : S.isObject = false) :
    ofPayload space (.object entries) = .error (.namespaceNotObject (space.getD "")) := by
  rw [ofPayload_eq, hsource]
  cases S with
  | object inner => cases hS
  | null | flag _ | int _ | float _ | text _ | list _ => rfl

end Payload

/-- **The claims of a payload are those of the key paths of its source, and of nothing
else.**  Only a namespace under which something else than an object stands has none: that is
an error.  Where the namespace is missing nothing is claimed. -/
theorem ofPayload_flattens (space : Option String) (entries : List (String × Json)) :
    (∀ flaw, ofPayload space (.object entries) = .error flaw ↔
      ∃ name v, space = some name ∧ name ≠ "" ∧ (Json.object entries).child? name = some v ∧
        v.isObject = false ∧ flaw = .namespaceNotObject name) ∧
    (source? space (.object entries) = .none → ofPayload space (.object entries) = .ok none) ∧
    ∀ S, source? space (.object entries) = some S → S.isObject = true →
      ∃ cs, ofPayload space (.object entries) = .ok cs ∧ Flattens S cs ∧
        ∀ space' entries' S', source? space' (.object entries') = some S' →
          S'.normalized = S.normalized → ofPayload space' (.object entries') = .ok cs := by
  have hmissing (hsource : source? space (.object entries) = .none) :
      ofPayload space (.object entries) = .ok none := by
    rw [ofPayload_eq, hsource]
    rfl
  have hobject {S : Json} (hS : S.isObject = true) : ∃ inner, S.normalized = .object inner := by
    cases S with
    | object inner => exact ⟨_, rfl⟩
    | null | flag _ | int _ | float _ | text _ | list _ => cases hS
  refine ⟨fun flaw => ⟨fun herror => ?_, ?_⟩, hmissing, fun S hsource hS => ?_⟩
  · cases hsource : source? space (.object entries) with
    | none =>
        rw [hmissing hsource] at herror
        cases herror
    | some S =>
        cases hS : S.isObject with
        | true =>
            obtain ⟨inner, hinner⟩ := hobject hS
            rw [ofPayload_of_source?_object hsource hinner] at herror
            cases herror
        | false =>
            obtain ⟨name, rfl, hname, hchild⟩ := source?_not_isObject hsource hS
            rw [ofPayload_of_source?_not_isObject hsource hS] at herror
            exact ⟨name, S, rfl, hname, hchild, hS, (Except.error.inj herror).symm⟩
  · rintro ⟨name, v, rfl, hname, hchild, hv, rfl⟩
    refine ofPayload_of_source?_not_isObject ?_ hv
    rw [source?, if_neg hname, hchild]
  · obtain ⟨inner, hinner⟩ := hobject hS
    refine ⟨ofEntries inner, ofPayload_of_source?_object hsource hinner,
      flattens_ofEntries hinner, ?_⟩
    intro space' entries' S' hsource' hsame
    exact ofPayload_of_source?_object hsource' (hsame.trans hinner)

/-- An object two of whose paths have the name `a.b.c`. -/
def badge : Json :=
  .object [("a", .object [("b.c", .int 1)]), ("none", .object []),
    ("a.b", .object [("c", .list [.int 2, .list [.int 3], .null])])]

/-- A payload with claims in a namespace and something beside them. -/
def token : List (String × Json) :=
  [("sub", .text "u1"), ("claims", badge)]

/-- A token with two paths of one name in the object that is selected: the later path wins, and of
the list that it leads to the nested one is dropped. -/
theorem token_claims : ∃ cs, ofPayload (some "claims") (.object token) = .ok cs ∧
    Flattens badge cs ∧ cs.byName.keys = ["a.b.c"] ∧
    (cs.find? "a.b.c").map Claim.toValue = some (.list [.int 2, .null]) := by
  obtain ⟨cs, hcs, hflattens, -⟩ := (ofPayload_flattens (some "claims") token).2.2 badge rfl rfl
  refine ⟨cs, hcs, hflattens, ?_⟩
  obtain rfl := Except.ok.inj hcs
  exact ⟨rfl, rfl⟩

end Claims

end GraphWarden
