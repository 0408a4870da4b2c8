import GraphWarden.Proofs.Warden.Key

/-!
# A memo and its history

A memo is used: outcomes are put in, looked up and forgotten.  What it holds after any uses is
told by them alone.  **Its entries are last puts, in the order in which they happened**
(`exists_dated`): no later use put something else in for the same key, and none cleared it.

From this it follows, for entries that last and keys that are told apart by their bytes, that
a memo never grows beyond its capacity, that it answers with what was last put in or not at
all, and that it makes room by dropping what was put in before all that it keeps
(`holds_latest`).
-/

namespace GraphWarden.Memo

/-! ### Uses -/

/-- What may be done with a memo. -/
inductive Use where
  | put (k : OutcomeKey) (v : Visibility)
  | get (k : OutcomeKey)
  | clear

/-- What an outcome is put in for, or looked up for. -/
def Use.key? : Use → Option OutcomeKey
  | put k _ | get k => some k
  | clear => none

/-- The memo after a use. -/
def use (m : Memo) : Use → Memo
  | .put k v => m.put k v
  | .get k => (m.get k).2
  | .clear => m.clear

/-- The memo after some uses, the first of them first. -/
def after (m : Memo) (uses : List Use) : Memo :=
  uses.foldl use m

/-- A memo without entries whose entries will last. -/
def lasting (capacity : Nat) : Memo :=
  { capacity, lifetime := .endless }

/-- After one use more a memo is what that use makes of it. -/
theorem after_concat (m : Memo) (uses : List Use) (u : Use) :
    m.after (uses ++ [u]) = (m.after uses).use u := by
  rw [after, List.foldl_append]
  rfl

/-- An outcome that was put in for a key, and by which use. -/
structure Put where
  position : Nat
  key : OutcomeKey
  outcome : Visibility

/-- The entry that a put makes. -/
def Put.entry (p : Put) : List UInt8 × Visibility :=
  (p.key.bytes, p.outcome)

/-- The put is the last one for its key, and nothing was cleared since. -/
structure LastPut (uses : List Use) (p : Put) : Prop where
  happened : uses[p.position]? = some (.put p.key p.outcome)
  not_again : ∀ i v, p.position < i → uses[i]? ≠ some (.put p.key v)
  not_cleared : ∀ i, p.position < i → uses[i]? ≠ some .clear

/-- Of two uses that put something in, the later one has the later time. -/
def RisingPuts (time : Nat → Nat) (uses : List Use) : Prop :=
  ∀ i j k v k' v', i < j → uses[i]? = some (.put k v) → uses[j]? = some (.put k' v') →
    time i < time j

section LastPut

variable {uses : List Use} {p : Put} {u : Use} {k : OutcomeKey} {v : Visibility}

/-- The use that was just made is the last one. -/
theorem lastPut_concat (uses : List Use) (k : OutcomeKey) (v : Visibility) :
    LastPut (uses ++ [.put k v]) ⟨uses.length, k, v⟩ := by
  have hnone : ∀ i, uses.length < i → (uses ++ [Use.put k v])[i]? = none := by
    intro i hi
    apply List.getElem?_eq_none
    rw [List.length_append, List.length_singleton]
    omega
  refine ⟨by simp, ?_, ?_⟩
  · intro i w hi
    simp [hnone i hi]
  · intro i hi
    simp [hnone i hi]

/-- A last put stays the last one, unless its key is put in again or all is cleared. -/
theorem LastPut.concat (h : LastPut uses p) (hput : ∀ v, u ≠ .put p.key v) (hclear : u ≠ .clear) :
    LastPut (uses ++ [u]) p := by
  have hold : p.position < uses.length := (List.getElem?_eq_some_iff.1 h.happened).1
  have hlater : ∀ (i : Nat) (x : Use), (uses ++ [u])[i]? = some x → uses[i]? = some x ∨ u = x := by
    intro i x hx
    by_cases hi : i < uses.length
    · left
      rwa [List.getElem?_append_left hi] at hx
    · right
      have hmem := List.mem_of_getElem? (by rwa [List.getElem?_append_right (by omega)] at hx)
      exact (List.mem_singleton.1 hmem).symm
  refine ⟨?_, ?_, ?_⟩
  · rw [List.getElem?_append_left hold]
    exact h.happened
  · intro i w hi hagain
    rcases hlater i _ hagain with hbefore | hnow
    · exact h.not_again i w hi hbefore
    · exact hput w hnow
  · intro i hi hcleared
    rcases hlater i _ hcleared with hbefore | hnow
    · exact h.not_cleared i hi hbefore
    · exact hclear hnow

end LastPut

/-! ### What a memo holds -/

/-- The entries of a memo are these puts, in the order in which they happened, and each is the
last one for its key. -/
structure Dated (uses : List Use) (m : Memo) (puts : List Put) : Prop where
  entries : m.entries = puts.map Put.entry
  rising : puts.Pairwise fun p p' => p.position < p'.position
  last : ∀ p ∈ puts, LastPut uses p

variable {m : Memo} {uses : List Use} {puts : List Put} {k : OutcomeKey} {v : Visibility}

/-- How many entries are dropped to make room. -/
def excess (m : Memo) : Nat :=
  if m.entries.length < m.capacity then 0 else max (m.capacity / 10) 1

/-- Room is made by dropping from the front, where entries last. -/
theorem evict_eq_drop (hlasting : m.lifetime = .endless) :
    m.evict = { m with entries := m.entries.drop m.excess } := by
  have hfresh : m.fresh = m.entries := by rw [fresh, hlasting]
  unfold evict excess
  rw [hfresh]
  by_cases hroom : m.entries.length < m.capacity
  · rw [if_pos hroom, if_pos hroom, List.drop_zero]
  · rw [if_neg hroom, if_neg hroom, if_neg hroom]

/-- Looking up only counts, where entries last. -/
theorem get_leaves (hlasting : m.lifetime = .endless) (k : OutcomeKey) :
    (m.get k).2.entries = m.entries ∧ (m.get k).2.capacity = m.capacity ∧
      (m.get k).2.lifetime = m.lifetime := by
  rw [get]
  cases m.find? k.bytes with
  | none => exact ⟨rfl, rfl, rfl⟩
  | some v =>
      rw [hlasting]
      exact ⟨rfl, rfl, rfl⟩

/-- A use changes neither the capacity nor the lifetime. -/
theorem use_settings (hlasting : m.lifetime = .endless) (u : Use) :
    (m.use u).capacity = m.capacity ∧ (m.use u).lifetime = .endless := by
  cases u with
  | put k v => simp [use, put, evict_eq_drop hlasting, hlasting]
  | get k =>
      obtain ⟨-, hcapacity, hlifetime⟩ := get_leaves hlasting k
      exact ⟨hcapacity, hlifetime.trans hlasting⟩
  | clear => exact ⟨rfl, hlasting⟩

/-- No use changes how much a memo can hold, or for how long. -/
theorem after_settings (capacity : Nat) (uses : List Use) :
    ((lasting capacity).after uses).capacity = capacity ∧
      ((lasting capacity).after uses).lifetime = .endless := by
  induction uses using List.reverseRecOn with
  | nil => exact ⟨rfl, rfl⟩
  | append_singleton uses u ih =>
      rw [after_concat]
      obtain ⟨hcapacity, hlasting⟩ := use_settings ih.2 u
      exact ⟨hcapacity.trans ih.1, hlasting⟩

/-- What is put in is found at once. -/
theorem get_put (hlasting : m.lifetime = .endless) (k : OutcomeKey) (v : Visibility) :
    ((m.put k v).get k).1 = some v := by
  have hothers : (m.evict.others k.bytes).find? (fun e => e.1 == k.bytes) = none := by
    rw [List.find?_eq_none]
    intro e he
    have hother := (List.mem_filter.1 he).2
    simpa using hother
  have hfound : (m.put k v).find? k.bytes = some v := by
    simp [find?, put, List.find?_append, hothers]
  have hstill : (m.put k v).lifetime = .endless := (use_settings hlasting (.put k v)).2
  simp [get, hfound, hstill]

/-- Dropping from the front leaves later puts. -/
theorem Dated.drop (h : Dated uses m puts) (n : Nat) :
    Dated uses { m with entries := m.entries.drop n } (puts.drop n) where
  entries := by rw [h.entries, List.map_drop]
  rising := h.rising.sublist (List.drop_sublist n puts)
  last p hp := h.last p (List.mem_of_mem_drop hp)

/-- Putting in for a key replaces what was put in for it before.  First room is made, which drops
the earliest puts; of the rest those for another key stay, and the new put comes behind them. -/
theorem Dated.put (h : Dated uses m puts) (hlasting : m.lifetime = .endless) (k : OutcomeKey)
    (v : Visibility) : ∃ puts', Dated (uses ++ [.put k v]) (m.put k v) puts' := by
  have hroom := h.drop m.excess
  rw [← evict_eq_drop hlasting] at hroom
  let kept := (puts.drop m.excess).filter fun p => p.key.bytes != k.bytes
  have hkept : ∀ p ∈ kept, LastPut (uses ++ [.put k v]) p ∧ p.position < uses.length := by
    intro p hp
    obtain ⟨hp, hother⟩ := List.mem_filter.1 hp
    have hlast := hroom.last p hp
    refine ⟨hlast.concat ?_ (by simp), (List.getElem?_eq_some_iff.1 hlast.happened).1⟩
    intro w heq
    have hkey : k = p.key := (Use.put.inj heq).1
    simp [hkey] at hother
  refine ⟨kept ++ [⟨uses.length, k, v⟩], ?_, ?_, ?_⟩
  · have hothers : m.evict.others k.bytes = kept.map Put.entry := by
      rw [others, hroom.entries, List.filter_map]
      rfl
    show m.evict.others k.bytes ++ [(k.bytes, v)] = _
    rw [hothers, List.map_append]
    rfl
  · refine List.pairwise_append.2 ⟨hroom.rising.filter _, List.pairwise_singleton _ _, ?_⟩
    intro p hp p' hp'
    rw [List.mem_singleton.1 hp']
    exact (hkept p hp).2
  · intro p hp
    rcases List.mem_append.1 hp with hp | hp
    · exact (hkept p hp).1
    · rw [List.mem_singleton.1 hp]
      exact lastPut_concat uses k v

/-- One more use. -/
theorem Dated.use (h : Dated uses m puts) (hlasting : m.lifetime = .endless) (u : Use) :
    ∃ puts', Dated (uses ++ [u]) (m.use u) puts' := by
  cases u with
  | put k v => exact h.put hlasting k v
  | get k =>
      refine ⟨puts, (get_leaves hlasting k).1.trans h.entries, h.rising, ?_⟩
      intro p hp
      exact (h.last p hp).concat (by simp) (by simp)
  | clear => exact ⟨[], rfl, List.Pairwise.nil, by simp⟩

/-- **The entries of a memo are last puts**, in the order in which they happened. -/
theorem exists_dated (capacity : Nat) (uses : List Use) :
    ∃ puts, Dated uses ((lasting capacity).after uses) puts := by
  induction uses using List.reverseRecOn with
  | nil => exact ⟨[], rfl, List.Pairwise.nil, by simp⟩
  | append_singleton uses u ih =>
      obtain ⟨puts, hputs⟩ := ih
      rw [after_concat]
      exact hputs.use (after_settings capacity uses).2 u

/-! ### What can be relied on -/

/-- A put makes room first, so that one more entry fits. -/
theorem length_put_le (hlasting : m.lifetime = .endless)
    (h : m.entries.length ≤ max m.capacity 1) (k : OutcomeKey) (v : Visibility) :
    (m.put k v).entries.length ≤ max m.capacity 1 := by
  have hothers : (m.evict.others k.bytes).length ≤ m.evict.entries.length :=
    List.length_filter_le _ _
  have hroom : m.evict.entries.length + 1 ≤ max m.capacity 1 := by
    rw [evict_eq_drop hlasting]
    show (m.entries.drop m.excess).length + 1 ≤ _
    rw [List.length_drop, excess]
    by_cases hfull : m.entries.length < m.capacity
    · rw [if_pos hfull]
      omega
    · rw [if_neg hfull]
      omega
  calc (m.put k v).entries.length
      = (m.evict.others k.bytes).length + 1 := by simp [put]
    _ ≤ m.evict.entries.length + 1 := Nat.add_le_add_right hothers 1
    _ ≤ max m.capacity 1 := hroom

/-- After any uses there are no more entries than the capacity, where a capacity of zero counts as
one. -/
theorem length_after_le (capacity : Nat) (uses : List Use) :
    ((lasting capacity).after uses).entries.length ≤ max capacity 1 := by
  induction uses using List.reverseRecOn with
  | nil => exact Nat.zero_le _
  | append_singleton uses u ih =>
      rw [after_concat]
      obtain ⟨hcapacity, hlasting⟩ := after_settings capacity uses
      cases u with
      | put k v =>
          have hbefore : ((lasting capacity).after uses).entries.length ≤
              max ((lasting capacity).after uses).capacity 1 := by rwa [hcapacity]
          have hafter := length_put_le hlasting hbefore k v
          rwa [hcapacity] at hafter
      | get k => exact (congrArg List.length (get_leaves hlasting k).1).trans_le ih
      | clear => exact Nat.zero_le _

/-- What is dropped to make room was put in before all that is kept. -/
theorem Dated.position_lt_of_evicted (h : Dated uses m puts) (hlasting : m.lifetime = .endless)
    {e e' : List UInt8 × Visibility} (he : e ∈ m.entries) (hdropped : e ∉ m.evict.entries)
    (he' : e' ∈ m.evict.entries) :
    ∃ p ∈ puts, ∃ p' ∈ puts, p.entry = e ∧ p'.entry = e' ∧ p.position < p'.position := by
  have hkept : m.evict.entries = (puts.drop m.excess).map Put.entry := by
    rw [evict_eq_drop hlasting, List.map_drop, ← h.entries]
  rw [hkept] at hdropped he'
  rw [h.entries] at he
  obtain ⟨p, hp, rfl⟩ := List.mem_map.1 he
  obtain ⟨p', hp', rfl⟩ := List.mem_map.1 he'
  have hfront : p ∈ puts.take m.excess := by
    rw [← List.take_append_drop m.excess puts] at hp
    rcases List.mem_append.1 hp with hp | hp
    · exact hp
    · exact absurd (List.mem_map_of_mem hp) hdropped
  have hrising := h.rising
  rw [← List.take_append_drop m.excess puts] at hrising
  exact ⟨p, hp, p', List.mem_of_mem_drop hp', rfl, rfl,
    (List.pairwise_append.1 hrising).2.2 p hfront p' hp'⟩

/-- **A memo holds what was put in last.**  For every capacity and after all uses: it has no
more entries than its capacity, or one; what is found was put in last for its key and not
cleared since; what is put in is found at once; and what is dropped to make room was last put
in before all that is kept.  The keys in use have to be told apart by their bytes. -/
theorem holds_latest {keys : Set OutcomeKey} (hkeys : Set.InjOn OutcomeKey.bytes keys)
    {uses : List Use} (huses : ∀ u ∈ uses, ∀ k, u.key? = some k → k ∈ keys) {time : Nat → Nat}
    (htime : RisingPuts time uses) {capacity : Nat} {m : Memo}
    (hm : m = (lasting capacity).after uses) :
    m.entries.length ≤ max capacity 1 ∧
    (∀ k ∈ keys, ∀ v, (m.get k).1 = some v → ∃ t, LastPut uses ⟨t, k, v⟩) ∧
    (∀ k v, ((m.put k v).get k).1 = some v) ∧
    (∀ e ∈ m.entries, e ∉ m.evict.entries → ∀ e' ∈ m.evict.entries,
      ∃ p p', p.entry = e ∧ p'.entry = e' ∧ LastPut uses p ∧ LastPut uses p' ∧
        time p.position < time p'.position) := by
  subst hm
  have hlasting := (after_settings capacity uses).2
  obtain ⟨puts, hputs⟩ := exists_dated capacity uses
  refine ⟨length_after_le capacity uses, ?_, get_put hlasting, ?_⟩
  · intro k hk v hfound
    have hmem := mem_of_get hfound
    rw [hputs.entries] at hmem
    obtain ⟨p, hp, hentry⟩ := List.mem_map.1 hmem
    have hlast := hputs.last p hp
    have hused : p.key ∈ keys := huses _ (List.mem_of_getElem? hlast.happened) p.key rfl
    have hkey : p.key = k := hkeys hused hk (Prod.mk.inj hentry).1
    have houtcome : p.outcome = v := (Prod.mk.inj hentry).2
    subst hkey houtcome
    exact ⟨p.position, hlast⟩
  · intro e he hdropped e' he'
    obtain ⟨p, hp, p', hp', rfl, rfl, hlt⟩ :=
      hputs.position_lt_of_evicted hlasting he hdropped he'
    have hlast := hputs.last p hp
    have hlast' := hputs.last p' hp'
    exact ⟨p, p', rfl, rfl, hlast, hlast',
      htime _ _ _ _ _ _ hlt hlast.happened hlast'.happened⟩

/-- The query rule of a type, in a generation of the schema, for an anonymous request. -/
def todo (generation : Nat) : OutcomeKey :=
  ⟨generation, "Todo", .query, Claims.none⟩

/-- Two outcomes are put in, and then the first one again. -/
def drill : List Use :=
  [.put (todo 1) .unrestricted, .put (todo 2) .denied, .get (todo 1), .put (todo 1) .denied]

/-- The three keys of the drill are told apart by their bytes. -/
theorem todo_injective : Set.InjOn OutcomeKey.bytes {k | ∃ n < 3, k = todo n} := by
  rintro _ ⟨n, hn, rfl⟩ _ ⟨n', hn', rfl⟩ h
  have hseparable : OutcomeKey.Separable Claims.none.byName.entries := by
    intro e he
    cases he
  exact OutcomeKey.eq_of_separable (hn.trans (by decide)) (hn'.trans (by decide)) hseparable
    hseparable h

/-- After the drill the memo holds the last outcome of the first key, and would drop the second key
first: the first one was put in again after it. -/
theorem drill_holds_latest :
    ((lasting 2).after drill).entries.length ≤ 2 ∧
    (∃ v t, (((lasting 2).after drill).get (todo 1)).1 = some v ∧
      LastPut drill ⟨t, todo 1, v⟩) ∧
    ∃ p p', p.entry.1 = (todo 2).bytes ∧ p'.entry.1 = (todo 1).bytes ∧ LastPut drill p ∧
      LastPut drill p' ∧ p.position < p'.position := by
  have huses : ∀ u ∈ drill, ∀ k, u.key? = some k → k ∈ {k | ∃ n < 3, k = todo n} := by
    intro u hu k hk
    simp only [drill, List.mem_cons, List.not_mem_nil, or_false] at hu
    rcases hu with rfl | rfl | rfl | rfl <;> obtain rfl := Option.some.inj hk
    · exact ⟨1, by decide, rfl⟩
    · exact ⟨2, by decide, rfl⟩
    · exact ⟨1, by decide, rfl⟩
    · exact ⟨1, by decide, rfl⟩
  have htime : RisingPuts id drill := fun _ _ _ _ _ _ hlt _ _ => hlt
  obtain ⟨hlength, hlatest, -, hevicted⟩ :=
    holds_latest todo_injective huses htime (m := (lasting 2).after drill) rfl
  refine ⟨hlength, ?_, ?_⟩
  · have hfound : (((lasting 2).after drill).get (todo 1)).1.isSome = true := by decide +kernel
    obtain ⟨v, hv⟩ := Option.isSome_iff_exists.1 hfound
    obtain ⟨t, ht⟩ := hlatest (todo 1) ⟨1, by decide, rfl⟩ v hv
    exact ⟨v, t, hv, ht⟩
  · have hkept : ((lasting 2).after drill).evict.entries.map Prod.fst = [(todo 1).bytes] := by
      decide +kernel
    have hheld : ((lasting 2).after drill).entries.map Prod.fst =
        [(todo 2).bytes, (todo 1).bytes] := by
      decide +kernel
    have hother : (todo 2).bytes ∉ [(todo 1).bytes] := by decide +kernel
    obtain ⟨e, he, hfirst⟩ := List.mem_map.1 (hheld ▸ List.mem_cons_self)
    obtain ⟨e', he', hsecond⟩ := List.mem_map.1 (hkept ▸ List.mem_cons_self)
    have hdropped : e ∉ ((lasting 2).after drill).evict.entries := by
      intro hmem
      have hbytes := List.mem_map_of_mem (f := Prod.fst) hmem
      rw [hkept, hfirst] at hbytes
      exact hother hbytes
    obtain ⟨p, p', rfl, rfl, hlast, hlast', hlt⟩ := hevicted e he hdropped e' he'
    exact ⟨p, p', hfirst, hsecond, hlast, hlast', hlt⟩

end GraphWarden.Memo
