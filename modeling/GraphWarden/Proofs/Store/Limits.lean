import GraphWarden.Proofs.Store.Shown

/-!
# Limits of a store

A store visits nodes one after the other, takes what they yield, and looks at the limit only
after it took something.  So a limit keeps the first of what would be taken without one, at
least one of them (`takeUpTo_cut`), and what would have been taken without a failure is still
taken without one.

For queries and probes alike this is a prefix of the length that the limit names, **except
under a limit of zero** (`limits_cut_prefix_iff`): then one record or id is left where none
was asked for.
-/

namespace GraphWarden

section Taking

variable {α β : Type} {step : α → Answer (Option β)} {as : List α} {bs : List β}

/-- What is taken under a limit is the beginning of what is taken without one. -/
theorem takeUpTo_cut (h : takeUpTo step none as = .ok bs) (n : Nat) :
    takeUpTo step (some n) as = .ok (bs.take (max n 1)) := by
  induction as generalizing bs n with
  | nil =>
      rw [takeUpTo] at h
      obtain rfl := Except.ok.inj h
      rw [takeUpTo, List.take_nil]
  | cons a as ih =>
      rcases cases_of_takeUpTo_cons h with ⟨ha, hrest⟩ | ⟨b, tail, ha, htail, rfl⟩
      · rw [takeUpTo, ha]
        exact ih hrest n
      · by_cases hn : n ≤ 1
        · simp [takeUpTo, ha, hn, bind, Except.bind]
        · have hmore : max n 1 = max (n - 1) 1 + 1 := by omega
          have hcut := ih htail (n - 1)
          simp [takeUpTo, ha, hn, hcut, hmore, bind, Except.bind]

/-- The beginning of at least one element is the beginning that was asked for, unless none was
asked for and there is one. -/
theorem take_max_one_eq_take_iff (bs : List β) (n : Nat) :
    bs.take (max n 1) = bs.take n ↔ n ≠ 0 ∨ bs = [] := by
  by_cases hn : n = 0
  · subst hn
    cases bs with
    | nil => simp
    | cons b bs => simp
  · have hmax : max n 1 = n := by omega
    simp [hmax, hn]

end Taking

namespace Store

variable {s : Store} {q : Query} {p : Probe} {records : List Record} {ids : List String}

/-- A query with a limit is answered with the first records, at least one of them. -/
theorem execute_cut (h : s.execute { q with first := none } = .ok records) (n : Nat) :
    s.execute { q with first := some n } = .ok (records.take (max n 1)) := by
  have honline := offline_eq_false h
  have hcut := takeUpTo_cut (of_online h) n
  exact (online_eq honline).trans hcut

/-- A probe with a limit is answered with the first ids, at least one of them. -/
theorem probe_cut (h : s.probe { p with limit := none } = .ok ids) (n : Nat) :
    s.probe { p with limit := some n } = .ok (ids.take (max n 1)) := by
  have honline := offline_eq_false h
  have hcut := takeUpTo_cut (of_online h) n
  exact (online_eq honline).trans hcut

/-- **Limits cut a prefix**, of the length that they name, exactly when they are not zero or
there is nothing to be cut.  A query or probe that is answered without a limit is answered
under every limit. -/
theorem limits_cut_prefix_iff (s : Store) (n : Nat) :
    (∀ (q : Query) (records : List Record), s.execute { q with first := none } = .ok records →
      ∃ cut, s.execute { q with first := some n } = .ok cut ∧
        (cut = records.take n ↔ n ≠ 0 ∨ records = [])) ∧
    (∀ (p : Probe) (ids : List String), s.probe { p with limit := none } = .ok ids →
      ∃ cut, s.probe { p with limit := some n } = .ok cut ∧
        (cut = ids.take n ↔ n ≠ 0 ∨ ids = [])) := by
  constructor
  · intro q records h
    exact ⟨_, execute_cut h n, take_max_one_eq_take_iff records n⟩
  · intro p ids h
    exact ⟨_, probe_cut h n, take_max_one_eq_take_iff ids n⟩

/-- A store of three notes, one of which is a draft, and a task between them. -/
def tray : Store :=
  ⟨.ofList [⟨"n1", "Note", [], .empty⟩, ⟨"n2", "Task", [], .empty⟩,
    ⟨"n3", "Note", [], .ofList [("draft", .scalar (.flag true))]⟩, ⟨"n4", "Note", [], .empty⟩],
    true, false⟩

/-- The notes that are no drafts. -/
def finished : Filter :=
  .not (.equals "draft" (.flag true))

/-- Two notes are finished, and limits of two and of one cut off what comes behind. -/
theorem tray_limited :
    ∃ records, tray.execute { typeName := "Note", filter := some finished } = .ok records ∧
      records.map Record.id = ["n1", "n4"] ∧
      tray.execute { typeName := "Note", filter := some finished, first := some 2 } =
        .ok (records.take 2) ∧
      tray.probe { typeName := "Note", filter := finished, limit := some 1 } = .ok ["n1"] := by
  have hids : (tray.execute { typeName := "Note", filter := some finished }).toOption.map
      (fun (records : List Record) => records.map Record.id) = some ["n1", "n4"] := by
    decide +kernel
  have hprobe : tray.probe { typeName := "Note", filter := finished } = .ok ["n1", "n4"] := rfl
  obtain ⟨records, hrecords, hlisted⟩ := Option.map_eq_some_iff.1 hids
  have hquery := toOption_eq_some_iff.1 hrecords
  obtain ⟨cut, hcut, hprefix⟩ := (limits_cut_prefix_iff tray 2).1
    { typeName := "Note", filter := some finished } records hquery
  obtain ⟨found, hfound, hfirst⟩ := (limits_cut_prefix_iff tray 1).2
    { typeName := "Note", filter := finished } _ hprobe
  obtain rfl := hprefix.2 (Or.inl (by decide))
  obtain rfl := hfirst.2 (Or.inl (by decide))
  exact ⟨records, hquery, hlisted, hcut, hfound⟩

/-- Under a limit of zero one record and one id are left. -/
theorem tray_zero_leaves_one :
    ∃ records, tray.execute { typeName := "Task" } = .ok records ∧
      tray.execute { typeName := "Task", first := some 0 } ≠ .ok (records.take 0) ∧
      ∃ ids, tray.probe { typeName := "Task", filter := finished } = .ok ids ∧
        tray.probe { typeName := "Task", filter := finished, limit := some 0 } ≠
          .ok (ids.take 0) := by
  have hall : (tray.execute { typeName := "Task" }).toOption.isSome = true := by
    decide +kernel
  have hquery : (tray.execute { typeName := "Task", first := some 0 }).toOption.map
      (fun (records : List Record) => records.map Record.id) = some ["n2"] := by
    decide +kernel
  have hprobe : tray.probe { typeName := "Task", filter := finished, limit := some 0 } =
      .ok ["n2"] := rfl
  obtain ⟨records, hrecords⟩ := Option.isSome_iff_exists.1 hall
  refine ⟨records, toOption_eq_some_iff.1 hrecords, ?_, ["n2"], rfl, ?_⟩
  · intro hnone
    simp [hnone, Except.toOption] at hquery
  · intro hnone
    simp [hnone] at hprobe

end Store

end GraphWarden
