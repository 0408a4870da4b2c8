import GraphWarden.Proofs.Warden.Frame

/-!
# Rejected loads

Whether a load is accepted depends on the definition alone (`Occurrence.compiled?`), not on the
warden.  A rejected load is answered by the problem and leaves the warden as it was, in every
part (`perform_of_rejected`); an accepted one puts the compiled schema in force under the next
generation (`perform_of_accepted`); and nothing else touches the schema in force, because
requests are `Confined` to what a warden remembers and counts, and to the time that passes.

For a whole run this means that **rejected loads change nothing**
(`rejected_loads_change_nothing`): the schema in force is the one that was accepted last, its
generation tells how many were accepted, and all other answers are those of the run without
the rejected loads.
-/

namespace GraphWarden

/-! ### What requests may change -/

namespace Warden

variable {α : Type} {w w' w'' : Warden}

/-- The schema in force, the store and the policy are the same. -/
structure SameGround (w w' : Warden) : Prop where
  catalog : w'.catalog = w.catalog
  store : w'.store = w.store
  policy : w'.policy = w.policy

theorem sameGround_refl (w : Warden) : w.SameGround w :=
  ⟨rfl, rfl, rfl⟩

theorem SameGround.trans (h : w.SameGround w') (h' : w'.SameGround w'') : w.SameGround w'' :=
  ⟨h'.catalog.trans h.catalog, h'.store.trans h.store, h'.policy.trans h.policy⟩

/-- The act changes at most what the warden remembers and counts, and the time. -/
def Confined (act : Act α) : Prop :=
  ∀ w : Warden, w.SameGround (w.perform act).2

/-- Moving the line, remembering and counting leave the schema in force, the store and the policy.
-/
theorem frame_sameGround : Frame SameGround where
  refl := sameGround_refl
  trans := SameGround.trans
  line _ _ := ⟨rfl, rfl, rfl⟩
  memo _ _ := ⟨rfl, rfl, rfl⟩
  count _ _ _ := ⟨rfl, rfl, rfl⟩

/-- Counting a write is confined as well. -/
theorem confined_authorizeWrite (r : Request) (op : Operation) (typeName : String)
    (ids : List String) : Confined (authorizeWrite r op typeName ids) := by
  have hcount : ∀ change, Leaves SameGround (count change) := fun _ _ => ⟨rfl, rfl, rfl⟩
  exact (leaves_authorize frame_sameGround r op typeName ids).bind frame_sameGround fun _ =>
    (hcount _).bind frame_sameGround fun _ => leaves_pure frame_sameGround _

end Warden

/-! ### Loads -/

namespace Occurrence

/-- What the definition that is loaded compiles to, when a schema is loaded. -/
def compiled? : Occurrence → Option (Except SchemaProblem Schema)
  | demand (.load definition) | loadElsewhere definition => some (Schema.compile definition)
  | demand (.loadText text) | loadTextElsewhere text =>
      some (SchemaDefinition.ofText text >>= Schema.compile)
  | demand _ => none

/-- Whether this is a load that is not accepted. -/
def isRejected (o : Occurrence) : Bool :=
  o.compiled?.any fun compiled => !compiled.isOk

/-- The schema that is put in force, before it is numbered. -/
def accepted? (o : Occurrence) : Option Schema :=
  o.compiled?.bind Except.toOption

end Occurrence

namespace Catalog

variable {c : Catalog} {definition : SchemaDefinition} {text : String}

/-- A compiled schema is put in force under the next generation, and what does not compile
leaves the schema that is in force. -/
def entering (c : Catalog) (compiled : Except SchemaProblem Schema) :
    Except SchemaProblem Schema × Catalog :=
  match compiled with
  | .ok s => (.ok { s with generation := c.generation + 1 },
      ⟨some { s with generation := c.generation + 1 }⟩)
  | .error problem => (.error problem, c)

/-- Loading a definition puts in force what it compiles to. -/
theorem load_eq : c.load definition = c.entering (Schema.compile definition) := by
  unfold load next entering
  cases Schema.compile definition with
  | error problem => rfl
  | ok s => rfl

/-- Loading a text puts in force what the definition written in it compiles to.  A text that is no
definition is rejected like one that does not compile. -/
theorem loadText_eq :
    c.loadText text = c.entering (SchemaDefinition.ofText text >>= Schema.compile) := by
  unfold loadText
  cases SchemaDefinition.ofText text with
  | error problem => rfl
  | ok definition => exact load_eq

end Catalog

namespace Warden

variable {w : Warden} {o : Occurrence} {s : Schema} {problem : SchemaProblem}

/-- A load enters what the definition compiles to, here or where others load.  Only a load that was
asked of this warden makes it forget what it remembers. -/
theorem perform_of_compiled {compiled : Except SchemaProblem Schema}
    (h : o.compiled? = some compiled) :
    w.perform o.act =
        w.perform (do return Reply.loaded (← activate (w.catalog.entering compiled))) ∨
      w.perform o.act =
        w.perform (do return Reply.loaded (← adopt fun c => c.entering compiled)) := by
  cases o with
  | loadElsewhere definition =>
      right
      rw [← Option.some.inj h]
      simp only [Occurrence.act, Catalog.load_eq]
  | loadTextElsewhere text =>
      right
      rw [← Option.some.inj h]
      simp only [Occurrence.act, Catalog.loadText_eq]
  | demand d =>
      left
      cases d with
      | load definition =>
          rw [← Option.some.inj h]
          simp only [Occurrence.act, Demand.act, Warden.load, Catalog.load_eq]
          rw [perform_bind, perform_bind_ok perform_get, perform_bind]
      | loadText text =>
          rw [← Option.some.inj h]
          simp only [Occurrence.act, Demand.act, Warden.loadText, Catalog.loadText_eq]
          rw [perform_bind, perform_bind_ok perform_get, perform_bind]
      | forget | claimsOfToken _ | authorizeQuery _ _ | authorizePasswordCheck _ _ | query _ _
      | authorizeWrite _ _ _ _ | authorizeAdd _ _ | evaluate _ _ _ _ =>
          simp [Occurrence.compiled?] at h

/-- **A rejected load** is answered by the problem, and leaves the warden as it was. -/
theorem perform_of_rejected (h : o.compiled? = some (.error problem)) :
    w.perform o.act = (.error (.schema problem), w) := by
  rcases perform_of_compiled (w := w) h with hperform | hperform
  · rw [hperform]
    rfl
  · rw [hperform]
    rfl

/-- **An accepted load** puts the schema in force under the next generation, which is the
answer. -/
theorem perform_of_accepted (h : o.compiled? = some (.ok s)) :
    (w.perform o.act).1 = .ok (.loaded (w.catalog.generation + 1)) ∧
      (w.perform o.act).2.catalog = ⟨some { s with generation := w.catalog.generation + 1 }⟩ := by
  rcases perform_of_compiled (w := w) h with hperform | hperform
  · rw [hperform]
    exact ⟨rfl, rfl⟩
  · rw [hperform]
    exact ⟨rfl, rfl⟩

/-- Whatever is no load leaves the schema in force. -/
theorem confined_of_no_load (h : o.compiled? = none) : Confined o.act := by
  cases o with
  | loadElsewhere _ | loadTextElsewhere _ => simp [Occurrence.compiled?] at h
  | demand d =>
      cases d with
      | load _ | loadText _ => simp [Occurrence.compiled?] at h
      | forget | claimsOfToken _ | authorizeQuery _ _ | authorizePasswordCheck _ _ | query _ _
      | evaluate _ _ _ _ => exact leaves_plain frame_sameGround rfl
      | authorizeWrite r op typeName ids =>
          exact Leaves.bind frame_sameGround (confined_authorizeWrite r op typeName ids) fun _ =>
            leaves_pure frame_sameGround _
      | authorizeAdd r typeName =>
          have hadd : Leaves SameGround (authorizeAdd r typeName) :=
            Leaves.bind frame_sameGround (confined_authorizeWrite r .add typeName _) fun _ =>
              leaves_pure frame_sameGround _
          exact hadd.bind frame_sameGround fun _ => leaves_pure frame_sameGround _

/-- So does a load that is not accepted. -/
theorem confined_of_not_accepted (h : o.accepted? = none) : Confined o.act := by
  intro w
  cases hcompiled : o.compiled? with
  | none => exact confined_of_no_load hcompiled w
  | some compiled =>
      cases compiled with
      | error problem =>
          rw [perform_of_rejected hcompiled]
          exact sameGround_refl w
      | ok s => simp [Occurrence.accepted?, hcompiled, Except.toOption] at h

/-! ### Runs -/

/-- What a warden is after a run. -/
def after (w : Warden) (run : List Occurrence) : Warden :=
  run.foldl (fun w o => (w.perform o.act).2) w

/-- A run in which nothing is accepted leaves the schema in force. -/
theorem sameGround_after {run : List Occurrence} : ∀ {w : Warden},
    (∀ o ∈ run, o.accepted? = none) → w.SameGround (w.after run) := by
  induction run with
  | nil =>
      intro w _
      exact sameGround_refl w
  | cons o run ih =>
      intro w h
      have hfirst := confined_of_not_accepted (h o List.mem_cons_self) w
      exact hfirst.trans (ih fun o ho => h o (List.mem_cons_of_mem _ ho))

/-- After one occurrence more the warden is what that occurrence makes of it. -/
theorem after_concat (w : Warden) (run : List Occurrence) (o : Occurrence) :
    w.after (run ++ [o]) = ((w.after run).perform o.act).2 := by
  simp [after]

/-- The schema in force is the last one that was accepted, numbered by how many were. -/
theorem catalog_after (hfresh : w.catalog = .empty) (run : List Occurrence) :
    (w.after run).catalog.current = (run.filterMap Occurrence.accepted?).getLast?.map (fun s =>
        { s with generation := (run.filterMap Occurrence.accepted?).length }) ∧
      (w.after run).catalog.generation = (run.filterMap Occurrence.accepted?).length := by
  induction run using List.reverseRecOn with
  | nil =>
      have hcatalog : (w.after []).catalog = .empty := hfresh
      rw [hcatalog]
      exact ⟨rfl, rfl⟩
  | append_singleton run o ih =>
      obtain ⟨hcurrent, hgeneration⟩ := ih
      rw [after_concat, List.filterMap_append]
      -- an accepted load is one more schema, anything else leaves the ones that there are
      cases haccepted : o.accepted? with
      | none =>
          have hkept := (confined_of_not_accepted haccepted (w.after run)).catalog
          rw [hkept, List.filterMap_cons_none haccepted, List.filterMap_nil, List.append_nil]
          exact ⟨hcurrent, hgeneration⟩
      | some s =>
          have hcompiled : o.compiled? = some (.ok s) := by
            obtain ⟨compiled, hcompiled, hs⟩ := Option.bind_eq_some_iff.1 haccepted
            rw [hcompiled, toOption_eq_some_iff.1 hs]
          rw [(perform_of_accepted hcompiled).2, List.filterMap_cons_some haccepted,
            List.filterMap_nil, hgeneration, List.length_append, List.getLast?_concat]
          exact ⟨rfl, rfl⟩

/-- A rejected load has a problem, is answered by it, and leaves the warden as it was. -/
theorem perform_of_isRejected (h : o.isRejected = true) :
    ∃ problem, o.compiled? = some (.error problem) ∧
      w.perform o.act = (.error (.schema problem), w) := by
  obtain ⟨compiled, hcompiled, hfailed⟩ := (Option.any_eq_true _ _).1 h
  cases compiled with
  | ok s => simp [Except.isOk, Except.toBool] at hfailed
  | error problem => exact ⟨problem, hcompiled, perform_of_rejected hcompiled⟩

/-- Without its rejected loads a run leaves the same warden behind. -/
theorem after_without_rejected (run : List Occurrence) : ∀ w : Warden,
    w.after (run.filter fun o => !o.isRejected) = w.after run := by
  induction run with
  | nil =>
      intro w
      rfl
  | cons o run ih =>
      intro w
      have hnext : w.after (o :: run) = (w.perform o.act).2.after run := rfl
      rw [hnext, List.filter_cons]
      cases hrejected : o.isRejected with
      | false => exact ih (w.perform o.act).2
      | true =>
          obtain ⟨problem, _, hperform⟩ := perform_of_isRejected (w := w) hrejected
          rw [hperform]
          exact ih w

/-- Without its rejected loads a run gets the same answers to all the rest. -/
theorem answers_without_rejected (run : List Occurrence) : ∀ w : Warden,
    ((run.zip (w.answers run)).filter fun p => !p.1.isRejected).map Prod.snd =
      w.answers (run.filter fun o => !o.isRejected) := by
  induction run with
  | nil =>
      intro w
      rfl
  | cons o run ih =>
      intro w
      rw [answers, List.zip_cons_cons, List.filter_cons, List.filter_cons]
      cases hrejected : o.isRejected with
      | false =>
          simp only [Bool.not_false, if_true, List.map_cons, answers]
          rw [ih]
      | true =>
          obtain ⟨problem, _, hperform⟩ := perform_of_isRejected (w := w) hrejected
          rw [hperform]
          exact ih w

/-- A rejected load is answered by what is wrong with the definition. -/
theorem answer_of_rejected {answer : Except AccessProblem Reply} (run : List Occurrence) :
    ∀ w : Warden, (o, answer) ∈ run.zip (w.answers run) →
      o.compiled? = some (.error problem) → answer = .error (.schema problem) := by
  induction run with
  | nil => simp [answers]
  | cons o' run ih =>
      intro w hmem hcompiled
      rw [answers, List.zip_cons_cons] at hmem
      rcases List.mem_cons.1 hmem with hfirst | hlater
      · obtain ⟨rfl, rfl⟩ := Prod.mk.inj hfirst
        rw [perform_of_rejected hcompiled]
      · exact ih (w.perform o'.act).2 hlater hcompiled

/-- **Rejected loads change nothing.**  After every run of loads, accepted or not, and of any
other demands, the schema in force is what was accepted last, and its generation is the number
of schemas accepted.  A rejected load is answered by what is wrong with it; without the
rejected loads the run leaves the very same warden behind, and gets the same answers to all the
rest. -/
theorem rejected_loads_change_nothing (hfresh : w.catalog = .empty) (run : List Occurrence) :
    (w.after run).catalog.current = (run.filterMap Occurrence.accepted?).getLast?.map (fun s =>
        { s with generation := (run.filterMap Occurrence.accepted?).length }) ∧
      (w.after run).catalog.generation = (run.filterMap Occurrence.accepted?).length ∧
      (∀ o problem answer, (o, answer) ∈ run.zip (w.answers run) →
        o.compiled? = some (.error problem) → answer = .error (.schema problem)) ∧
      w.after (run.filter fun o => !o.isRejected) = w.after run ∧
      ((run.zip (w.answers run)).filter fun p => !p.1.isRejected).map Prod.snd =
        w.answers (run.filter fun o => !o.isRejected) := by
  obtain ⟨hcurrent, hgeneration⟩ := catalog_after hfresh run
  exact ⟨hcurrent, hgeneration, fun _ _ _ hmem h => answer_of_rejected run w hmem h,
    after_without_rejected run w, answers_without_rejected run w⟩

/-- The desk before any schema is loaded. -/
def newDesk : Warden :=
  { desk with catalog := .empty }

/-- A text that is none, and notes that are defined twice, are loaded between others. -/
def clumsyDay : List Occurrence :=
  [.demand (.loadText "type"),
    .demand (.load guardedNotes),
    .demand (.query { claims := administrator } { typeName := "Note" }),
    .demand (.load { types := guardedNotes.types ++ guardedNotes.types }),
    .demand (.query { claims := administrator } { typeName := "Note" }),
    .loadElsewhere { types := [{ name := "Note", kind := .object }] },
    .loadTextElsewhere "type",
    .demand (.authorizeWrite {} .delete "Note" ["n1"])]

/-- Three of the eight occurrences are rejected, and the two schemas that were accepted are
counted.  Without the three the day ends in the same way. -/
theorem newDesk_rejects :
    clumsyDay.map Occurrence.isRejected =
        [true, false, false, true, false, false, true, false] ∧
      (newDesk.after clumsyDay).catalog.generation = 2 ∧
      newDesk.after (clumsyDay.filter fun o => !o.isRejected) = newDesk.after clumsyDay := by
  obtain ⟨_, hgeneration, _, hafter, _⟩ :=
    rejected_loads_change_nothing (w := newDesk) rfl clumsyDay
  have hcount : (clumsyDay.filterMap Occurrence.accepted?).length = 2 := by decide +kernel
  exact ⟨by decide +kernel, hgeneration.trans hcount, hafter⟩

end Warden

end GraphWarden
