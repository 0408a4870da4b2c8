import Mathlib.Data.List.Nodup
import Mathlib.Data.List.Perm.Subperm
import GraphWarden.Proofs.Schema.Accepted

/-!
# Peeling a hierarchy

Peeling counts, for each type, the names of its list that are not taken away yet, and takes
away the types for which none is left.  `Peeling.Right` says what holds all the while: the
counts are what they are meant to be, repeats in a list included, so no count is taken below
zero; the types that count nothing are those taken away and those queued, each once.

`Peeling.Right.take` keeps it for one type that is taken away, `right_peel` for a run.  What
comes out is independent of the ways that the run went: the types stand in an order in which
each comes after all that it lists (`ordered_peeled`), and **a type is taken away exactly when
all that it lists is** (`mem_peeled_iff`).
-/

namespace GraphWarden

theorem Names.nodup_of_rising {names : List String} (h : Names.Rising names) : names.Nodup := by
  refine h.imp ?_
  rintro a _ hlt rfl
  exact String.lt_irrefl a hlt

theorem Keyed.keys_nodup {α : Type} (m : Keyed α) : m.keys.Nodup :=
  Names.nodup_of_rising (List.pairwise_map.2 m.rising)

/-- The keys of a map are those under which something is found. -/
theorem Keyed.mem_keys_iff {α : Type} {m : Keyed α} {key : String} :
    key ∈ m.keys ↔ (m.find? key).isSome := by
  unfold Keyed.keys
  rw [List.mem_map, Option.isSome_iff_exists]
  constructor
  · rintro ⟨e, he, rfl⟩
    exact ⟨e.2, Keyed.find?_eq_some_iff.2 he⟩
  · rintro ⟨value, hvalue⟩
    exact ⟨(key, value), Keyed.find?_eq_some_iff.1 hvalue, rfl⟩

/-- What a list without repeated keys holds its map finds. -/
theorem Keyed.find?_ofList_eq_some_iff {α : Type} {pairs : Entries α}
    (hnodup : (pairs.map Prod.fst).Nodup) {key : String} {value : α} :
    (Keyed.ofList pairs).find? key = some value ↔ (key, value) ∈ pairs := by
  refine ⟨Keyed.mem_of_find?_ofList, fun hmem => ?_⟩
  obtain ⟨found, hfound⟩ := Option.isSome_iff_exists.1 (Keyed.isSome_find?_ofList hmem)
  have hsame := List.inj_on_of_nodup_map hnodup (Keyed.mem_of_find?_ofList hfound) hmem rfl
  rw [hfound, Option.some.injEq]
  exact (Prod.ext_iff.1 hsame).2

namespace Kinship

variable {kin : Kinship}

/-- The interfaces that a type lists. -/
def listed (kin : Kinship) (name : String) : List String :=
  ((kin.find? name).map Kin.interfaces).getD []

/-! ### Orders -/

/-- After the types in `done`, each type of a list comes once, and after all that it
lists. -/
def Ordered (kin : Kinship) : (done order : List String) → Prop
  | _, [] => True
  | done, t :: order =>
      t ∉ done ∧ (∀ i ∈ kin.listed t, i ∈ done) ∧ Ordered kin (done ++ [t]) order

/-- What is in order behind some types, and more in order behind all of these, is in order
together. -/
theorem Ordered.append {first second : List String} : ∀ {done : List String},
    kin.Ordered done first → kin.Ordered (done ++ first) second →
      kin.Ordered done (first ++ second) := by
  induction first with
  | nil =>
      intro done _ hsecond
      simpa using hsecond
  | cons t first ih =>
      rintro done ⟨hnew, hlisted, hfirst⟩ hsecond
      refine ⟨hnew, hlisted, ih hfirst ?_⟩
      simpa using hsecond

/-! ### The counts -/

/-- Among what lists an interface a type stands as often as it lists it. -/
theorem count_listers (kin : Kinship) (t interface : String) :
    (kin.listers interface).count t = (kin.listed t).count interface := by
  have hentries : ∀ entries : Entries Kin, (entries.map Prod.fst).Nodup →
      (entries.flatMap fun e => List.replicate (e.2.interfaces.count interface) e.1).count t =
        (((Entries.find? t entries).map Kin.interfaces).getD []).count interface := by
    intro entries
    induction entries with
    | nil => simp [Entries.find?]
    | cons e entries ih =>
        intro hnodup
        obtain ⟨hnew, hrest⟩ := List.nodup_cons.1 hnodup
        rw [List.flatMap_cons, List.count_append, ih hrest, List.count_replicate]
        by_cases hname : e.1 = t
        · subst hname
          have hnone : Entries.find? e.1 entries = none := by
            cases hfind : Entries.find? e.1 entries with
            | none => rfl
            | some k =>
                have hmem := Entries.mem_of_find?_eq_some hfind
                exact absurd (List.mem_map_of_mem hmem) hnew
          simp [Entries.find?, hnone]
        · simp [Entries.find?, hname]
  exact hentries kin.entries (Keyed.keys_nodup kin)

/-- Of the names of a list, those not done yet are fewer by a name that is done next. -/
theorem length_filter_add_count {done : List String} {next : String} (hnew : next ∉ done)
    (names : List String) :
    (names.filter fun i => i ∉ done ++ [next]).length + names.count next =
      (names.filter fun i => i ∉ done).length := by
  induction names with
  | nil => simp
  | cons i names ih =>
      by_cases hnext : i = next
      · subst hnext
        simp [hnew] at ih ⊢
        omega
      · by_cases hdone : i ∈ done
        · simpa [hdone, hnext] using ih
        · simp [hdone, hnext] at ih ⊢
          omega

/-! ### Letting types wait for less -/

/-- Names of types that do not repeat are not more than there are types. -/
theorem length_le_size {names : List String} (honce : names.Nodup) (hknown : names ⊆ kin.keys) :
    names.length ≤ kin.size :=
  Keyed.length_keys kin ▸ (honce.subperm hknown).length_le

namespace Peeling

/-- A type that is let go for one name waits for one name less, and all others wait for as many as
before. -/
theorem find?_release (p : Peeling) (name t : String) :
    (p.release name).waiting.find? t =
      if name = t then (p.waiting.find? t).map (· - 1) else p.waiting.find? t := by
  unfold release
  by_cases hname : name = t
  · subst hname
    cases hfind : p.waiting.find? name with
    | none => simp [hfind]
    | some count => simp [Keyed.find?_put]
  · cases hfind : p.waiting.find? name with
    | none => simp [hname]
    | some count => simp [Keyed.find?_put, hname]

/-- A type waits for as many names fewer as it is let go. -/
theorem find?_foldl_release (names : List String) (t : String) : ∀ p : Peeling,
    (names.foldl release p).waiting.find? t = (p.waiting.find? t).map (· - names.count t) := by
  induction names with
  | nil => simp
  | cons name names ih =>
      intro p
      rw [List.foldl_cons, ih, find?_release, List.count_cons]
      by_cases hname : name = t
      · cases p.waiting.find? t with
        | none => simp [hname]
        | some count =>
            simp only [hname, if_true, Option.map_some, beq_self_eq_true]
            congr 1
            omega
      · simp [hname]

/-- Of types that are not let go more often than they wait, those are queued, each once, that
are let go as often as they wait. -/
theorem queue_foldl_release (names : List String) : ∀ p : Peeling,
    (∀ t ∈ names, ∃ count, p.waiting.find? t = some count ∧ names.count t ≤ count) →
      ∃ released, (names.foldl release p).queue = p.queue ++ released ∧ released.Nodup ∧
        ∀ t, t ∈ released ↔ t ∈ names ∧ p.waiting.find? t = some (names.count t) := by
  induction names with
  | nil =>
      intro p _
      exact ⟨[], by simp⟩
  | cons name names ih =>
      intro p hwaiting
      obtain ⟨count, hcount, hle⟩ := hwaiting name List.mem_cons_self
      rw [List.count_cons_self] at hle
      have hrest : ∀ t ∈ names, ∃ count, (p.release name).waiting.find? t = some count ∧
          names.count t ≤ count := by
        intro t ht
        obtain ⟨count', hcount', hle'⟩ := hwaiting t (List.mem_cons_of_mem _ ht)
        rw [find?_release, hcount']
        by_cases hname : name = t
        · subst hname
          rw [List.count_cons_self] at hle'
          exact ⟨count' - 1, by simp, by omega⟩
        · rw [List.count_cons_of_ne hname] at hle'
          exact ⟨count', by simp [hname], hle'⟩
      obtain ⟨released, hqueue, hnodup, hmem⟩ := ih (p.release name) hrest
      have hother : ∀ t, name ≠ t → (t ∈ released ↔
          t ∈ name :: names ∧ p.waiting.find? t = some ((name :: names).count t)) := by
        intro t hname
        rw [hmem, find?_release, if_neg hname, List.count_cons_of_ne hname, List.mem_cons]
        simp [Ne.symm hname]
      rw [List.foldl_cons]
      by_cases hlast : count - 1 = 0
      · have hgone : name ∉ names := by
          rw [← List.count_eq_zero]
          omega
        have hnew : name ∉ released := fun h => hgone ((hmem name).1 h).1
        refine ⟨name :: released, ?_, List.nodup_cons.2 ⟨hnew, hnodup⟩, fun t => ?_⟩
        · rw [hqueue]
          simp [release, hcount, hlast]
        · by_cases hname : name = t
          · subst hname
            have hone : count = names.count name + 1 := by
              rw [List.count_eq_zero.2 hgone]
              omega
            simp [hcount, hone]
          · rw [List.mem_cons, ← hother t hname]
            simp [Ne.symm hname]
      · refine ⟨released, ?_, hnodup, fun t => ?_⟩
        · rw [hqueue]
          simp [release, hcount, hlast]
        · by_cases hname : name = t
          · subst hname
            rw [hmem, find?_release, if_pos rfl, hcount, List.count_cons_self]
            simp only [Option.map_some, Option.some.injEq, List.mem_cons, true_or, true_and]
            constructor
            · rintro ⟨_, heq⟩
              omega
            · intro heq
              refine ⟨List.count_pos_iff.1 ?_, ?_⟩ <;> omega
          · exact hother t hname

/-! ### What holds all the while -/

/-- Peeling has come this far: the types that are done stand in order, each type waits for
the names of its list that are not done, and those that wait for none are done or queued,
each once. -/
structure Right (kin : Kinship) (p : Peeling) (done : List String) : Prop where
  ordered : kin.Ordered [] done
  waiting : ∀ t, p.waiting.find? t =
    (kin.find? t).map fun k => (k.interfaces.filter fun i => i ∉ done).length
  once : (done ++ p.queue).Nodup
  mem_iff : ∀ t, t ∈ done ++ p.queue ↔ p.waiting.find? t = some 0

variable {p : Peeling} {done : List String}

/-- A type that is done or queued is known, and all that it lists is done.  A queued type has
nothing left to wait for. -/
theorem Right.find?_of_mem (h : p.Right kin done) {t : String} (ht : t ∈ done ++ p.queue) :
    ∃ k, kin.find? t = some k ∧ ∀ i ∈ k.interfaces, i ∈ done := by
  have hzero := (h.mem_iff t).1 ht
  rw [h.waiting] at hzero
  obtain ⟨k, hk, hlength⟩ := Option.map_eq_some_iff.1 hzero
  exact ⟨k, hk, by simpa using hlength⟩

/-- There are not more types done and queued than there are types. -/
theorem Right.length_le (h : p.Right kin done) : (done ++ p.queue).length ≤ kin.size := by
  have hknown : done ++ p.queue ⊆ kin.keys := by
    intro t ht
    obtain ⟨k, hk, _⟩ := h.find?_of_mem ht
    exact Keyed.mem_keys_iff.2 (by simp [hk])
  exact length_le_size h.once hknown

/-- At the start nothing is done. -/
theorem right_unpeeled (kin : Kinship) : kin.unpeeled.Right kin [] := by
  have hnodup : ((kin.entries.map fun e => (e.1, e.2.interfaces.length)).map Prod.fst).Nodup := by
    rw [List.map_map]
    exact Keyed.keys_nodup kin
  have hwaiting : ∀ t, kin.unpeeled.waiting.find? t =
      (kin.find? t).map fun k => k.interfaces.length := by
    intro t
    refine Option.ext fun count => ?_
    unfold unpeeled
    rw [Keyed.find?_ofList_eq_some_iff hnodup, Option.map_eq_some_iff, List.mem_map]
    constructor
    · rintro ⟨e, he, heq⟩
      cases heq
      exact ⟨e.2, Keyed.find?_eq_some_iff.2 he, rfl⟩
    · rintro ⟨k, hk, rfl⟩
      exact ⟨(t, k), Keyed.find?_eq_some_iff.1 hk, rfl⟩
  constructor
  · trivial
  · simpa using hwaiting
  · have hkeys := Keyed.keys_nodup kin.unpeeled.waiting
    exact hkeys.sublist (List.filter_sublist.map Prod.fst)
  · intro t
    rw [List.nil_append, Keyed.find?_eq_some_iff]
    simp [unpeeled]

/-- What is queued is not done yet. -/
theorem Right.not_mem_done (h : p.Right kin done) {name : String} {queue : List String}
    (hqueue : p.queue = name :: queue) : name ∉ done := by
  have honce := h.once
  rw [hqueue] at honce
  intro hdone
  exact (List.nodup_append.1 honce).2.2 name hdone name List.mem_cons_self rfl

/-- With a name that is taken away a type is let go as often as it lists the name, and waits for
each of these. -/
theorem Right.counted (h : p.Right kin done) {name : String} (hnew : name ∉ done) {t : String}
    {count : Nat} (hcount : p.waiting.find? t = some count) :
    ∃ k, kin.find? t = some k ∧ (kin.listers name).count t = k.interfaces.count name ∧
      (k.interfaces.filter fun i => i ∉ done ++ [name]).length + k.interfaces.count name =
        count := by
  rw [h.waiting] at hcount
  obtain ⟨k, hk, rfl⟩ := Option.map_eq_some_iff.1 hcount
  refine ⟨k, hk, ?_, length_filter_add_count hnew k.interfaces⟩
  rw [count_listers, listed, hk, Option.map_some, Option.getD_some]

/-- So no type is let go more often than it waits. -/
theorem Right.enough (h : p.Right kin done) {name : String} (hnew : name ∉ done) {t : String}
    (ht : t ∈ kin.listers name) :
    ∃ count, p.waiting.find? t = some count ∧ (kin.listers name).count t ≤ count := by
  have hpositive : 0 < (kin.listed t).count name := by
    rw [← count_listers]
    exact List.count_pos_iff.2 ht
  cases hcount : p.waiting.find? t with
  | none =>
      rw [h.waiting, Option.map_eq_none_iff] at hcount
      simp [listed, hcount] at hpositive
  | some count =>
      obtain ⟨k, _, hlisters, hadd⟩ := h.counted hnew hcount
      exact ⟨count, rfl, by omega⟩

/-- **Taking one type away** keeps all this.  Each type that lists it waits for one name less, and
is queued when it waits for none; it was neither done nor queued before, since all those waited for
none already. -/
theorem Right.take (h : p.Right kin done) {name : String} {queue : List String}
    (hqueue : p.queue = name :: queue) :
    ((kin.listers name).foldl release { p with queue }).Right kin (done ++ [name]) := by
  have hmem : name ∈ done ++ p.queue := by simp [hqueue]
  have honce := h.once
  rw [hqueue] at honce
  have hnew := h.not_mem_done hqueue
  obtain ⟨k, hk, hlisted⟩ := h.find?_of_mem hmem
  have hwaiting : ∀ t, ((kin.listers name).foldl release { p with queue }).waiting.find? t =
      (kin.find? t).map fun k => (k.interfaces.filter fun i => i ∉ done ++ [name]).length := by
    intro t
    rw [find?_foldl_release]
    cases hcount : p.waiting.find? t with
    | none =>
        have hnone := hcount
        rw [h.waiting, Option.map_eq_none_iff] at hnone
        simp [hnone]
    | some count =>
        obtain ⟨k, hk, hlisters, hadd⟩ := h.counted hnew hcount
        rw [hk, Option.map_some, Option.map_some, hlisters]
        congr 1
        omega
  obtain ⟨released, hreleased, hnodup, hreleased_iff⟩ :=
    queue_foldl_release (kin.listers name) { p with queue } fun t ht => h.enough hnew ht
  simp only at hreleased hreleased_iff
  have hlate : ∀ t ∈ released, t ∉ done ++ name :: queue := by
    intro t ht hearly
    obtain ⟨hlister, hcount⟩ := (hreleased_iff t).1 ht
    have hzero := (h.mem_iff t).1 (hqueue ▸ hearly)
    rw [hzero] at hcount
    have hpositive := List.count_pos_iff.2 hlister
    exact absurd (Option.some.inj hcount) (by omega)
  constructor
  · refine h.ordered.append ⟨by simpa using hnew, ?_, trivial⟩
    simpa [listed, hk] using hlisted
  · exact hwaiting
  · rw [hreleased]
    have hall : ((done ++ name :: queue) ++ released).Nodup := by
      refine List.nodup_append.2 ⟨honce, hnodup, ?_⟩
      rintro t ht _ hlater rfl
      exact hlate t hlater ht
    simpa using hall
  · intro t
    rw [hwaiting, hreleased]
    have hearly := h.mem_iff t
    rw [hqueue] at hearly
    have hsplit : t ∈ done ++ [name] ++ (queue ++ released) ↔
        t ∈ done ++ name :: queue ∨ t ∈ released := by
      simp only [List.mem_append, List.mem_cons, List.not_mem_nil, or_false]
      tauto
    rw [hsplit, hearly, hreleased_iff]
    cases hcount : p.waiting.find? t with
    | none =>
        have hnone := hcount
        rw [h.waiting, Option.map_eq_none_iff] at hnone
        simp [hnone]
    | some count =>
        obtain ⟨k, hk, hlisters, hadd⟩ := h.counted hnew hcount
        rw [hk, Option.map_some, hlisters]
        simp only [Option.some.injEq]
        constructor
        · rintro (hzero | ⟨_, heq⟩) <;> omega
        · intro hzero
          by_cases hlister : t ∈ kin.listers name
          · exact Or.inr ⟨hlister, by omega⟩
          · rw [← List.count_eq_zero, hlisters] at hlister
            exact Or.inl (by omega)

/-- **A run of peeling** keeps it too, and ends when nothing is queued or the fuel is used
up. -/
theorem right_peel (fuel : Nat) : ∀ {p : Peeling} {done : List String}, p.Right kin done →
    ∃ q : Peeling, q.Right kin (kin.peel fuel p done) ∧
      (q.queue = [] ∨ done.length + fuel ≤ (kin.peel fuel p done).length) := by
  induction fuel with
  | zero =>
      intro p done h
      exact ⟨p, h, Or.inr (Nat.le_refl _)⟩
  | succ fuel ih =>
      intro p done h
      cases hqueue : p.queue with
      | nil => exact ⟨p, by simpa [peel, hqueue] using h, Or.inl hqueue⟩
      | cons name queue =>
          obtain ⟨q, hright, hend⟩ := ih (h.take hqueue)
          simp only [peel, hqueue]
          refine ⟨q, hright, hend.imp_right fun hlength => ?_⟩
          rw [List.length_append, List.length_singleton] at hlength
          omega

end Peeling

/-! ### What is taken away -/

/-- Peeling ends with an empty queue: there are not more types than turns. -/
theorem right_peeled (kin : Kinship) : ∃ q : Peeling, q.Right kin kin.peeled ∧ q.queue = [] := by
  obtain ⟨q, hright, hend⟩ := Peeling.right_peel kin.size (Peeling.right_unpeeled kin)
  refine ⟨q, hright, hend.elim id fun hlength => ?_⟩
  have hle := hright.length_le
  rw [List.length_append] at hle
  rw [List.length_nil, Nat.zero_add] at hlength
  have hlength' : kin.size ≤ kin.peeled.length := hlength
  exact List.eq_nil_of_length_eq_zero (by omega)

/-- What peeling takes away it takes away in order. -/
theorem ordered_peeled (kin : Kinship) : kin.Ordered [] kin.peeled := by
  obtain ⟨_, hright, _⟩ := right_peeled kin
  exact hright.ordered

/-- **A type is taken away exactly when all that it lists is.** -/
theorem mem_peeled_iff {t : String} :
    t ∈ kin.peeled ↔ t ∈ kin.keys ∧ ∀ i ∈ kin.listed t, i ∈ kin.peeled := by
  obtain ⟨q, hright, hqueue⟩ := right_peeled kin
  have hmem := hright.mem_iff t
  rw [hqueue, List.append_nil, hright.waiting, Option.map_eq_some_iff] at hmem
  rw [hmem, Keyed.mem_keys_iff, Option.isSome_iff_exists]
  constructor
  · rintro ⟨k, hk, hlength⟩
    refine ⟨⟨k, hk⟩, ?_⟩
    simpa [listed, hk] using hlength
  · rintro ⟨⟨k, hk⟩, hlisted⟩
    refine ⟨k, hk, ?_⟩
    simpa [listed, hk] using hlisted

/-- Peeling takes away as many types as there are exactly when it takes away each. -/
theorem length_peeled_iff : kin.peeled.length = kin.size ↔ ∀ t ∈ kin.keys, t ∈ kin.peeled := by
  obtain ⟨q, hright, hqueue⟩ := right_peeled kin
  have honce := hright.once
  rw [hqueue, List.append_nil] at honce
  have hknown : kin.peeled ⊆ kin.keys := fun t ht => (mem_peeled_iff.1 ht).1
  constructor
  · intro hlength t ht
    have hsame : kin.keys.length = kin.peeled.length := (Keyed.length_keys kin).trans hlength.symm
    have hperm := (honce.subperm hknown).perm_of_length_le (Nat.le_of_eq hsame)
    exact hperm.mem_iff.2 ht
  · intro hall
    have hback := ((Keyed.keys_nodup kin).subperm hall).length_le
    rw [Keyed.length_keys] at hback
    exact Nat.le_antisymm (length_le_size honce hknown) hback

end Kinship

end GraphWarden
