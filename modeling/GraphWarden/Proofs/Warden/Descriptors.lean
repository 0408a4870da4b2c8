import GraphWarden.Proofs.Warden.Rejected

/-!
# Descriptors in force

A descriptor reaches the schema in force on two ways.  A text is read with its descriptor line,
and a line that has a flaw makes the text no schema (`flawless_of_ofText`).  A definition that
is given as such brings its descriptor along; whether it is accepted depends on its types alone
(`compile_withDescriptor`), and the descriptor is taken over as it is.

So, over every run, **the descriptors in force are flawless exactly as long as the definitions
that are given and accepted have none that is not** (`in_force_flawless_iff`).  A descriptor
without a claims key, which no text can bring in, has claims read from all of a token
(`nameless_in_force`).
-/

namespace GraphWarden

/-- There is no descriptor, or one without a flaw. -/
def Descriptor.Flawless (attached : Option Descriptor) : Prop :=
  ∀ d, attached = some d → d.flaw? = none

/-- A descriptor without a flaw names the header of the token and the key of the claims. -/
theorem Descriptor.named_of_flaw? {d : Descriptor} (h : d.flaw? = none) :
    d.header ≠ "" ∧ d.claimsKey ≠ "" := by
  unfold flaw? at h
  by_cases hheader : d.header.isEmpty = true
  · simp [hheader] at h
  · by_cases hkey : d.claimsKey.isEmpty = true
    · simp [hheader, hkey] at h
    · exact ⟨by simpa using hheader, by simpa using hkey⟩

/-! ### Texts -/

/-- A descriptor that is read from a line has no flaw. -/
theorem Descriptor.flaw?_of_ofObjectText {cs : List Char} {d : Descriptor}
    (h : ofObjectText cs = .ok d) : d.flaw? = none := by
  unfold ofObjectText at h
  split at h
  · simp at h
  · split at h
    · simp at h
    · next read _ =>
        cases hflaw : read.flaw? with
        | some flaw =>
            rw [hflaw] at h
            simp at h
        | none =>
            rw [hflaw] at h
            cases h
            exact hflaw

/-- **The descriptor that a text brings along is flawless.** -/
theorem SchemaDefinition.flawless_of_ofText {text : String} {definition : SchemaDefinition}
    (h : ofText text = .ok definition) : Descriptor.Flawless definition.descriptor := by
  unfold ofText at h
  split at h
  · simp at h
  · next declarations _ =>
      cases htypes : declarations.mapM typeOf with
      | error problem => simp [htypes, bind, Except.bind] at h
      | ok types =>
          cases hread : Descriptor.ofSchemaText text with
          | error flaw => simp [htypes, hread, bind, Except.bind] at h
          | ok attached =>
              simp only [htypes, hread, bind, Except.bind, Except.ok.injEq] at h
              subst h
              rintro d rfl
              unfold Descriptor.ofSchemaText at hread
              split at hread
              · simp at hread
              · obtain ⟨d', hd', hsome⟩ := exists_of_map_eq_ok hread
                obtain rfl := Option.some.inj hsome
                exact Descriptor.flaw?_of_ofObjectText hd'

/-! ### Definitions -/

/-- Compiling passes the descriptor on, and does not look at it. -/
theorem Schema.compile_withDescriptor (definition : SchemaDefinition)
    (descriptor : Option Descriptor) :
    compile { definition with descriptor } =
      (compile definition).map fun s => { s with descriptor } := by
  unfold compile
  cases hhier : Hierarchy.ofDefinitions definition.types with
  | error problem => simp [bind, Except.bind, Except.map]
  | ok hier =>
      cases hown : allOwnRules hier definition.types with
      | error problem => simp [hown, bind, Except.bind, Except.map]
      | ok own => simp [hown, bind, Except.bind, Except.map]

theorem Schema.descriptor_of_compile {definition : SchemaDefinition} {s : Schema}
    (h : compile definition = .ok s) : s.descriptor = definition.descriptor := by
  have hpassed := compile_withDescriptor definition definition.descriptor
  change compile definition = _ at hpassed
  rw [h] at hpassed
  exact congrArg Schema.descriptor (Except.ok.inj hpassed)

/-! ### Runs -/

namespace Occurrence

variable {o : Occurrence} {definition : SchemaDefinition} {s : Schema}

/-- The definition that is loaded, when it is given as such and not as a text. -/
def given? : Occurrence → Option SchemaDefinition
  | demand (.load definition) | loadElsewhere definition => some definition
  | _ => none

/-- A definition that is given as such is what the load compiles. -/
theorem compiled?_of_given? (h : o.given? = some definition) :
    o.compiled? = some (Schema.compile definition) := by
  unfold given? at h
  split at h
  · cases h
    rfl
  · cases h
    rfl
  · simp at h

/-- What is put in force was given, or read from a text. -/
theorem exists_of_accepted? (h : o.accepted? = some s) :
    ∃ definition, Schema.compile definition = .ok s ∧
      (o.given? = some definition ∨ ∃ text, SchemaDefinition.ofText text = .ok definition) := by
  obtain ⟨compiled, hcompiled, hs⟩ := Option.bind_eq_some_iff.1 h
  rw [toOption_eq_some_iff] at hs
  subst hs
  unfold compiled? at hcompiled
  split at hcompiled
  · exact ⟨_, Option.some.inj hcompiled, Or.inl rfl⟩
  · exact ⟨_, Option.some.inj hcompiled, Or.inl rfl⟩
  -- the two ways of loading a text
  iterate 2
    next text =>
      have hboth := Option.some.inj hcompiled
      cases hread : SchemaDefinition.ofText text with
      | error problem => simp [hread, bind, Except.bind] at hboth
      | ok definition =>
          rw [hread] at hboth
          exact ⟨definition, hboth, Or.inr ⟨text, hread⟩⟩
  · simp at hcompiled

/-- A definition that is given and not rejected is put in force with its descriptor. -/
theorem accepted?_of_given? (h : o.given? = some definition) (haccepted : o.isRejected = false) :
    ∃ s, o.accepted? = some s ∧ s.descriptor = definition.descriptor := by
  have hcompiled := compiled?_of_given? h
  unfold isRejected at haccepted
  rw [hcompiled] at haccepted
  cases hs : Schema.compile definition with
  | error problem => simp [hs, Except.isOk, Except.toBool] at haccepted
  | ok s =>
      refine ⟨s, ?_, Schema.descriptor_of_compile hs⟩
      rw [accepted?, hcompiled, hs]
      rfl

/-- A load that puts a schema in force is not rejected. -/
theorem not_rejected_of_accepted? (h : o.accepted? = some s) : o.isRejected = false := by
  obtain ⟨compiled, hcompiled, hs⟩ := Option.bind_eq_some_iff.1 h
  rw [toOption_eq_some_iff] at hs
  rw [isRejected, hcompiled, hs]
  rfl

end Occurrence

namespace Warden

variable {w : Warden}

/-- The descriptor in force came with the occurrence that was accepted last. -/
theorem exists_of_in_force (hfresh : w.catalog = .empty) {run : List Occurrence} {s : Schema}
    (hs : (w.after run).catalog.current = some s) :
    ∃ o ∈ run, ∃ entered, o.accepted? = some entered ∧ s.descriptor = entered.descriptor := by
  rw [(catalog_after hfresh run).1] at hs
  obtain ⟨entered, hlast, rfl⟩ := Option.map_eq_some_iff.1 hs
  obtain ⟨o, ho, haccepted⟩ := List.mem_filterMap.1 (List.mem_of_getLast? hlast)
  exact ⟨o, ho, entered, haccepted, rfl⟩

/-- Right after it was accepted a schema is in force. -/
theorem in_force_of_accepted (hfresh : w.catalog = .empty) (past : List Occurrence)
    {o : Occurrence} {entered : Schema} (h : o.accepted? = some entered) :
    ∃ s, (w.after (past ++ [o])).catalog.current = some s ∧
      s.descriptor = entered.descriptor := by
  rw [(catalog_after hfresh (past ++ [o])).1, List.filterMap_append, List.filterMap_cons_some h,
    List.filterMap_nil, List.getLast?_concat]
  exact ⟨_, rfl, rfl⟩

/-- **The descriptors in force are as flawless as those that are given.**  Over a run of loads
and any other demands every descriptor in force is flawless, exactly when each definition that
is given and accepted has a flawless one or none: texts only bring in flawless descriptors, but
of a definition that is given the descriptor plays no part in whether it is accepted.  A flawless
descriptor has a claims key. -/
theorem in_force_flawless_iff (hfresh : w.catalog = .empty) (run : List Occurrence) :
    ((∀ past, past <+: run → ∀ s, (w.after past).catalog.current = some s →
        Descriptor.Flawless s.descriptor) ↔
      ∀ o ∈ run, ∀ definition, o.given? = some definition → o.isRejected = false →
        Descriptor.Flawless definition.descriptor) ∧
    (∀ text definition, SchemaDefinition.ofText text = .ok definition →
      Descriptor.Flawless definition.descriptor) ∧
    (∀ definition descriptor, Schema.compile { definition with descriptor } =
      (Schema.compile definition).map fun s => { s with descriptor }) ∧
    ∀ d : Descriptor, d.flaw? = none → d.claimsKey ≠ "" := by
  refine ⟨⟨?_, ?_⟩, fun _ _ => SchemaDefinition.flawless_of_ofText, Schema.compile_withDescriptor,
    fun d hd => (Descriptor.named_of_flaw? hd).2⟩
  · intro hthroughout o ho definition hgiven haccepted
    obtain ⟨entered, hentered, hdescriptor⟩ := Occurrence.accepted?_of_given? hgiven haccepted
    obtain ⟨past, rest, rfl⟩ := List.append_of_mem ho
    have hpast : past ++ [o] <+: past ++ o :: rest := ⟨rest, by simp⟩
    obtain ⟨s, hs, hsame⟩ := in_force_of_accepted hfresh past hentered
    rw [← hdescriptor, ← hsame]
    exact hthroughout _ hpast s hs
  · intro hgiven past hpast s hs
    obtain ⟨o, ho, entered, hentered, hsame⟩ := exists_of_in_force hfresh hs
    obtain ⟨definition, hcompile, horigin⟩ := Occurrence.exists_of_accepted? hentered
    rw [hsame, Schema.descriptor_of_compile hcompile]
    rcases horigin with hdefinition | ⟨text, htext⟩
    · exact hgiven o (hpast.subset ho) definition hdefinition
        (Occurrence.not_rejected_of_accepted? hentered)
    · exact SchemaDefinition.flawless_of_ofText htext

/-- A descriptor that names a header, but no claims key. -/
def nameless : Descriptor where
  header := "X-Auth"
  claimsKey := ""
  algorithm := some "HS256"
  verificationKey := some "secret"
  keySetUrl := none
  audience := []
  closedByDefault := false

/-- Notes, with a descriptor. -/
def notesUnder (descriptor : Descriptor) : SchemaDefinition where
  types := [{ name := "Note", kind := .object }]
  descriptor := some descriptor

/-- The notes with the nameless descriptor, as a text. -/
def namelessText : String :=
  "type Note\n# Authorization \x7b\"Header\":\"X-Auth\",\"Namespace\":\"\",\"Algo\":\"HS256\",\"VerificationKey\":\"secret\"\x7d\n"

/-- The notes are loaded with a descriptor that names both, and then as the text without. -/
def namedRun : List Occurrence :=
  [.demand (.load (notesUnder { nameless with claimsKey := "app" })),
    .demand (.loadText namelessText)]

/-- The text changes nothing about the descriptor that was loaded before it. -/
theorem newDesk_flawless :
    ∃ s, (newDesk.after namedRun).catalog.current = some s ∧
      Descriptor.Flawless s.descriptor := by
  have hforce : (newDesk.after namedRun).catalog.current.isSome = true := by
    decide +kernel
  obtain ⟨s, hs⟩ := Option.isSome_iff_exists.1 hforce
  have hgiven : ∀ o ∈ namedRun, ∀ definition, o.given? = some definition →
      o.isRejected = false → Descriptor.Flawless definition.descriptor := by
    intro o ho definition hgiven _
    rcases List.mem_cons.1 ho with rfl | ho
    · obtain rfl := Option.some.inj hgiven
      intro d hd
      obtain rfl := Option.some.inj hd
      decide
    · obtain rfl := List.mem_singleton.1 ho
      simp [Occurrence.given?] at hgiven
  exact ⟨s, hs, (in_force_flawless_iff (w := newDesk) rfl namedRun).1.2 hgiven namedRun
    List.prefix_rfl s hs⟩

/-- The desk after the notes were loaded with the nameless descriptor. -/
def namelessDesk : Warden :=
  newDesk.after [.demand (.load (notesUnder nameless))]

/-- As a text the notes under the nameless descriptor are refused.  As a definition they are
accepted, the descriptor is in force, and what stands anywhere in a token counts as claimed. -/
theorem nameless_in_force :
    (Occurrence.demand (.loadText namelessText)).isRejected = true ∧
      ∃ s d claims, namelessDesk.catalog.current = some s ∧ s.descriptor = some d ∧
        d.flaw? = some .noNamespace ∧ d.claimsKey = "" ∧
        (namelessDesk.perform (claimsOfToken (.object [("ROLE", .text "ADMIN")]))).1 =
          .ok claims ∧
        claims.has "ROLE" = true := by
  have hforce : (namelessDesk.catalog.current.bind Schema.descriptor).any (fun d =>
      d.flaw? = some .noNamespace ∧ d.claimsKey = "") = true := by
    decide +kernel
  have hclaims :
      (namelessDesk.perform (claimsOfToken (.object [("ROLE", .text "ADMIN")]))).1.toOption.any
        (fun claims => claims.has "ROLE") = true := by
    decide +kernel
  obtain ⟨d, hd, hflaw⟩ := (Option.any_eq_true _ _).1 hforce
  obtain ⟨s, hs, hd⟩ := Option.bind_eq_some_iff.1 hd
  obtain ⟨hnoNamespace, hkey⟩ := of_decide_eq_true hflaw
  obtain ⟨claims, hread, hhas⟩ := (Option.any_eq_true _ _).1 hclaims
  exact ⟨by decide +kernel, s, d, claims, hs, hd, hnoNamespace, hkey,
    toOption_eq_some_iff.1 hread, hhas⟩

end Warden

end GraphWarden
