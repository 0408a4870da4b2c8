import GraphWarden.Proofs.Tagged.Telling
import GraphWarden.Proofs.Warden.Modes
import GraphWarden.Proofs.Warden.Rejected

/-!
# Explanations

The program that explains a rule is no warden.  It puts the schema in force in a catalog of its
own, reads the claims, and works out what they may see, once and with nothing remembered.

A warden that has loaded the same text has the same schema in force, but for its generation.  It
reads the same claims from a payload (`perform_claimsOfToken`); and what it remembers for them is
right, whatever it was asked since (`faithful_after`), since it forgot everything when it loaded.
So **the program tells what the warden does** (`explains_the_warden`): what it reports is what
the warden answers, and where it reports a problem instead, so does the warden.  It says so in
print: the text of a report tells the outcome that it was made of (`text_report_eq_iff`).
-/

namespace GraphWarden

/-- A result whose problem was only put in other words is the result itself. -/
theorem of_mapError_eq_ok {ε ε' α : Type} {f : ε → ε'} {x : Except ε α} {a : α}
    (h : x.mapError f = .ok a) : x = .ok a := by
  cases x with
  | error problem => cases h
  | ok a' => exact congrArg Except.ok (Except.ok.inj h)

/-- The claims of a token payload, read where the schema says. -/
def Schema.claimsOf (s : Schema) (payload : Json) : Except AccessProblem Claims :=
  (Claims.ofPayload (s.descriptor.map Descriptor.claimsKey) payload).mapError fun flaw =>
    .request (.claims flaw)

/-! ### Wardens that have loaded a text -/

namespace Warden

variable {w : Warden} {s : Schema} {claims : Claims} {text : String} {later : List Occurrence}

/-- A warden reads claims from a payload as its schema says, and changes nothing. -/
theorem perform_claimsOfToken (hcurrent : w.catalog.current = some s) (payload : Json) :
    (w.perform (claimsOfToken payload)).1 = s.claimsOf payload := by
  unfold claimsOfToken Schema.claimsOf
  rw [perform_bind_ok (perform_schema hcurrent)]
  cases Claims.ofPayload (s.descriptor.map Descriptor.claimsKey) payload with
  | error flaw => rfl
  | ok claims => rfl

/-- Whatever happens to a warden, and puts no schema in force that others load, it stays
faithful to claims that are apart from those of its requests. -/
theorem faithful_of_not_accepted {o : Occurrence} (hw : w.Faithful claims)
    (h : o.accepted? = none)
    (hapart : ∀ r, o.request? = some r → OutcomeKey.Apart claims r.claims) :
    (w.perform o.act).2.Faithful claims := by
  have helsewhere : ∀ compiled, o.compiled? = some compiled →
      (w.perform o.act).2.Faithful claims := by
    intro compiled hcompiled
    cases compiled with
    | error problem =>
        rw [perform_of_rejected hcompiled]
        exact hw
    | ok s => simp [Occurrence.accepted?, hcompiled, Except.toOption] at h
  cases o with
  | loadElsewhere definition => exact helsewhere _ rfl
  | loadTextElsewhere text => exact helsewhere _ rfl
  | demand d =>
      have hserved := faithful_serve hw hapart
      rw [← perform_demand] at hserved
      exact hserved

/-- **A run in which no schema is accepted** keeps a warden faithful. -/
theorem faithful_after : ∀ {w : Warden}, w.Faithful claims → (∀ o ∈ later, o.accepted? = none) →
    (∀ o ∈ later, ∀ r, o.request? = some r → OutcomeKey.Apart claims r.claims) →
    (w.after later).Faithful claims := by
  induction later with
  | nil => exact fun hw _ _ => hw
  | cons o later ih =>
      intro w hw h hapart
      refine ih (faithful_of_not_accepted hw (h o List.mem_cons_self) (hapart o List.mem_cons_self))
        ?_ ?_
      · exact fun o' ho' => h o' (List.mem_cons_of_mem _ ho')
      · exact fun o' ho' => hapart o' (List.mem_cons_of_mem _ ho')

/-- The warden has loaded a text, and since then the given things have happened to it, none of
which put another schema in force. -/
def HasLoaded (text : String) (later : List Occurrence) (w : Warden) : Prop :=
  ∃ before : Warden, (∀ o ∈ later, o.accepted? = none) ∧
    w = before.after (.demand (.loadText text) :: later)

/-- Loading a text that is accepted makes a warden forget. -/
theorem perform_loadText (hs : (Catalog.empty.loadText text).1 = .ok s) :
    ∃ generation, (w.perform (Demand.loadText text).act).2 =
      { w with
        catalog := ⟨some { s with generation }⟩
        memo := w.memo.map Memo.clear } := by
  rw [Catalog.loadText_eq] at hs
  rw [perform_demand, serve, loadText, perform_bind_ok perform_get, Catalog.loadText_eq]
  cases hcompiled : SchemaDefinition.ofText text >>= Schema.compile with
  | error problem =>
      rw [hcompiled] at hs
      cases hs
  | ok compiled =>
      rw [hcompiled] at hs
      cases hs
      exact ⟨w.catalog.generation + 1, rfl⟩

/-- Nothing of this has put another store behind the warden. -/
theorem store_after_loadText (hs : (Catalog.empty.loadText text).1 = .ok s)
    (hlater : ∀ o ∈ later, o.accepted? = none) :
    (w.after (.demand (.loadText text) :: later)).store = w.store := by
  obtain ⟨generation, hloaded⟩ := perform_loadText (w := w) hs
  have hrun : w.after (.demand (.loadText text) :: later) =
      ((w.perform (Demand.loadText text).act).2).after later := rfl
  rw [hrun, hloaded]
  exact (sameGround_after hlater).store

/-- Such a warden has the schema of the text in force, under some generation, and is faithful to
all claims that are apart from those of its requests since. -/
theorem HasLoaded.ready (h : w.HasLoaded text later)
    (hs : (Catalog.empty.loadText text).1 = .ok s) :
    ∃ generation, w.catalog.current = some { s with generation } ∧
      ∀ claims, (∀ o ∈ later, ∀ r, o.request? = some r → OutcomeKey.Apart claims r.claims) →
        Ready { s with generation } claims w := by
  obtain ⟨before, hlater, rfl⟩ := h
  obtain ⟨generation, hloaded⟩ := perform_loadText (w := before) hs
  have hrun : before.after (.demand (.loadText text) :: later) =
      ((before.perform (Demand.loadText text).act).2).after later := rfl
  rw [hrun, hloaded]
  have hcurrent := congrArg Catalog.current (sameGround_after (w := { before with
    catalog := ⟨some { s with generation }⟩, memo := before.memo.map Memo.clear }) hlater).catalog
  refine ⟨generation, hcurrent, fun claims hapart => ⟨hcurrent, fun _ => ?_⟩⟩
  refine faithful_after (faithful_of_nothing fun m hm => ?_) hlater hapart
  obtain ⟨m', _, rfl⟩ := Option.map_eq_some_iff.1 hm
  rfl

end Warden

/-! ### The program -/

namespace Explain

variable {read : String → Except String String} {args : List String} {a : Arguments}
  {schemaText text : String} {s : Schema} {payload : Json} {later : List Occurrence} {w : Warden}

/-- What the program has at hand when it comes to the claims: its arguments, a text of a schema
that is accepted and defines the type, and a payload. -/
structure Given (read : String → Except String String) (args : List String) (a : Arguments)
    (schemaText : String) (s : Schema) (payload : Json) : Prop where
  arguments : Arguments.ofList args = .ok a
  written : read a.schemaPath = .ok schemaText
  accepted : (Catalog.empty.loadText schemaText).1 = .ok s
  defined : (s.find? a.typeName).isSome = true
  payload : ∃ claimsText, read a.claimsPath = .ok claimsText ∧ Json.ofText? claimsText = .ok payload

/-- The rest of the way: the claims, and what they may see on a store that evaluates negated
filters. -/
theorem Given.textFor_eq (h : Given read args a schemaText s payload) :
    textFor read args = match s.claimsOf payload with
      | .error problem => .error (.access problem)
      | .ok claims => match s.outcome true claims a.op a.typeName with
        | .error problem => .error (.access problem)
        | .ok v => .ok ((report s a.typeName a.op v).pretty 0 ++ "\n") := by
  obtain ⟨claimsText, hread, hpayload⟩ := h.payload
  have hdefined : (s.find? a.typeName).isNone = false := by
    rw [← Option.not_isSome, h.defined]
    rfl
  unfold textFor reportFor Schema.claimsOf
  simp only [h.arguments, h.written, h.accepted, hdefined, hread, hpayload, bind, Except.bind,
    Except.mapError, Bool.false_eq_true, if_false]
  cases Claims.ofPayload (s.descriptor.map Descriptor.claimsKey) payload with
  | error flaw => rfl
  | ok claims =>
      have houtcome : outcome s claims a.typeName a.op = s.outcome true claims a.op a.typeName := rfl
      simp only [houtcome]
      cases s.outcome true claims a.op a.typeName with
      | error problem => rfl
      | ok v => rfl

/-- A program that reports anything came as far as that. -/
theorem exists_given (h : textFor read args = .ok text) :
    ∃ a schemaText s payload, Given read args a schemaText s payload := by
  unfold textFor at h
  obtain ⟨a, harguments, h⟩ := exists_of_bind_eq_ok h
  obtain ⟨j, hreport, -⟩ := exists_of_bind_eq_ok h
  unfold reportFor at hreport
  obtain ⟨schemaText, hwritten, hreport⟩ := exists_of_bind_eq_ok hreport
  obtain ⟨s, haccepted, hreport⟩ := exists_of_bind_eq_ok hreport
  cases hfind : s.find? a.typeName with
  | none =>
      simp only [hfind, Option.isNone_none, if_true] at hreport
      cases hreport
  | some info =>
      simp only [hfind, Option.isNone_some, Bool.false_eq_true, if_false] at hreport
      obtain ⟨claimsText, hread, hreport⟩ := exists_of_bind_eq_ok hreport
      obtain ⟨payload, hpayload, -⟩ := exists_of_bind_eq_ok hreport
      refine ⟨a, schemaText, s, payload, harguments, of_mapError_eq_ok hwritten,
        of_mapError_eq_ok haccepted, by rw [hfind]; rfl, claimsText, ?_, ?_⟩
      · exact of_mapError_eq_ok hread
      · exact of_mapError_eq_ok hpayload

/-- **The program tells what the warden does.**  A report is only made of a schema that is
accepted and defines the type, and of a payload that can be read.  Take then any warden over a
store that evaluates negated filters, which has loaded the same text, whatever it was before and
has met since, as long as nothing else was accepted and no other claims are taken for those of
the payload.

The outcome that is reported is what the warden answers to a request with the claims that it
reads from the payload: the report holds its name, and for a restriction the filter, and no other
outcome has the text that is printed, unless it differs in the sign of infinite numbers.  And where
there is no report, the warden meets the same problem, with the claims or with the rule. -/
theorem explains_the_warden (read : String → Except String String) (args : List String) :
    (∀ text, textFor read args = .ok text →
      ∃ a schemaText s payload, Given read args a schemaText s payload) ∧
    ∀ a schemaText s payload, Given read args a schemaText s payload →
      ∀ (w : Warden) (later : List Occurrence), w.store.complement = true →
        w.HasLoaded schemaText later →
        (∀ claims, s.claimsOf payload = .ok claims → ∀ o ∈ later, ∀ r, o.request? = some r →
          OutcomeKey.Apart claims r.claims) →
        (∀ text, textFor read args = .ok text → ∃ claims v,
          text = (report s a.typeName a.op v).pretty 0 ++ "\n" ∧
          (report s a.typeName a.op v).child? "outcome" = some v.tagged ∧ v.Shown v.tagged ∧
          (∀ v', text = (report s a.typeName a.op v').pretty 0 ++ "\n" ↔ v.told = v'.told) ∧
          (w.perform (Warden.claimsOfToken payload)).1 = .ok claims ∧
          ∀ r : Request, r.claims = claims →
            (w.perform (Warden.evaluate r a.typeName a.op .filter)).1 = .ok (.visible v)) ∧
        ∀ problem, textFor read args = .error problem → ∃ cause, problem = .access cause ∧
          ((w.perform (Warden.claimsOfToken payload)).1 = .error cause ∨
            ∃ claims, (w.perform (Warden.claimsOfToken payload)).1 = .ok claims ∧
              ∀ r : Request, r.claims = claims →
                (w.perform (Warden.evaluate r a.typeName a.op .filter)).1 = .error cause) := by
  refine ⟨fun text h => exists_given h, ?_⟩
  intro a schemaText s payload hgiven w later hcomplement hloaded hapart
  obtain ⟨generation, hcurrent, hready⟩ := hloaded.ready hgiven.accepted
  have hclaims : (w.perform (Warden.claimsOfToken payload)).1 = s.claimsOf payload :=
    Warden.perform_claimsOfToken hcurrent payload
  have hevaluate : ∀ claims, s.claimsOf payload = .ok claims → ∀ r : Request, r.claims = claims →
      (w.perform (Warden.evaluate r a.typeName a.op .filter)).1 =
        (s.outcome true claims a.op a.typeName).map .visible := by
    rintro claims hread r rfl
    rw [Warden.perform_evaluate_filter (hready r.claims (hapart r.claims hread)), hcomplement]
    rfl
  rw [hgiven.textFor_eq, hclaims]
  cases hread : s.claimsOf payload with
  | error cause =>
      refine ⟨fun text h => (by cases h), fun problem h => ⟨cause, ?_, Or.inl rfl⟩⟩
      exact (Except.error.inj h).symm
  | ok claims =>
      have hanswer := hevaluate claims hread
      simp only
      cases houtcome : s.outcome true claims a.op a.typeName with
      | error cause =>
          rw [houtcome] at hanswer
          refine ⟨fun text h => (by cases h), fun problem h => ?_⟩
          exact ⟨cause, (Except.error.inj h).symm, Or.inr ⟨claims, rfl, hanswer⟩⟩
      | ok v =>
          rw [houtcome] at hanswer
          refine ⟨fun text h => ?_, fun problem h => (by cases h)⟩
          obtain rfl := Except.ok.inj h
          exact ⟨claims, v, rfl, child?_report _ _ _ _, v.shown_tagged,
            fun v' => text_report_eq_iff, rfl, hanswer⟩

/-- Notes that administrators see, and of which they may delete those that are kept for them. -/
def noteText : String :=
  "type Note @auth(query: \x7brule: \"\x7b$ROLE: \x7beq: ADMIN\x7d\x7d\"\x7d, " ++
    "delete: \x7brule: \"query($ROLE: ID) \x7bqueryNote(filter: \x7bkept: \x7beq: $ROLE\x7d\x7d) " ++
    "\x7bid\x7d\x7d\"\x7d) \x7bid: ID!\x7d"

/-- Two files: the text, and the payload of an administrator. -/
def files (path : String) : Except String String :=
  if path = "notes.graphql" then .ok noteText
  else if path = "admin.json" then .ok "\x7b\"ROLE\": \"ADMIN\"\x7d"
  else .error "no such file"

/-- The arguments that ask what an operation leaves visible of the notes. -/
def noteArguments (op : Operation) : List String :=
  ["notes.graphql", "admin.json", "Note", op.name]

/-- The report on seeing notes. -/
def seenText : String :=
  "\x7b\n" ++
  "  \"effective_rule\": \x7b\n" ++
  "    \"claim\": \"ROLE\",\n" ++
  "    \"comparator\": \x7b\n" ++
  "      \"eq\": \x7b\n" ++
  "        \"Enum\": \"ADMIN\"\n" ++
  "      \x7d\n" ++
  "    \x7d,\n" ++
  "    \"kind\": \"role\"\n" ++
  "  \x7d,\n" ++
  "  \"generation\": 1,\n" ++
  "  \"operation\": \"query\",\n" ++
  "  \"outcome\": \x7b\n" ++
  "    \"outcome\": \"unrestricted\"\n" ++
  "  \x7d,\n" ++
  "  \"type\": \"Note\"\n" ++
  "\x7d\n"

/-- The notes that are kept for administrators. -/
def keptNotes : Filter :=
  .equals "kept" (.text "ADMIN")

/-- An administrator has asked twice already, and a text that is none was not accepted. -/
def askedBefore : List Occurrence :=
  [.demand (.evaluate { claims := Warden.administrator } "Note" .query .filter),
    .demand (.loadText "type"),
    .demand (.evaluate { claims := Warden.administrator } "Note" .delete .filter)]

/-- The desk has met all of that since it loaded the notes. -/
def deskAsked : Warden :=
  Warden.desk.after (.demand (.loadText noteText) :: askedBefore)

/-- None of what the desk was asked put another schema in force. -/
theorem not_accepted_askedBefore : ∀ o ∈ askedBefore, o.accepted? = none := by
  have hall : askedBefore.all (fun o => o.accepted?.isNone) = true := by decide +kernel
  exact fun o ho => Option.isNone_iff_eq_none.1 (List.all_eq_true.1 hall o ho)

/-- What the desk has loaded last is the text of the notes. -/
theorem deskAsked_hasLoaded : deskAsked.HasLoaded noteText askedBefore :=
  ⟨Warden.desk, not_accepted_askedBefore, rfl⟩

/-- How they are spelled in a report. -/
theorem tagged_keptNotes : keptNotes.tagged =
    .object [("compare", .object [("field", .text "kept"), ("op", .text "eq"),
      ("value", .object [("String", .text "ADMIN")])])] := by
  have hrising : Entries.Rising [("field", Json.text "kept"), ("op", .text "eq"),
      ("value", .object [("String", .text "ADMIN")])] := by
    unfold Entries.Rising
    decide
  exact congrArg (fun body => Json.object [("compare", .object body)])
    (Entries.ofList_eq_self hrising)

/-- No infinite number is in either outcome, so what is told of it is all of it. -/
theorem told_unrestricted {v : Visibility} (h : v.told = Visibility.unrestricted.told) :
    v = .unrestricted := by
  cases v with
  | unrestricted => rfl
  | denied => cases h
  | restricted f => cases h

/-- Only the restriction to kept notes is told like it. -/
theorem told_keptNotes {v : Visibility} (h : v.told = (Visibility.restricted keptNotes).told) :
    v = .restricted keptNotes := by
  cases v with
  | unrestricted => cases h
  | denied => cases h
  | restricted f =>
      have hfilter : f.told = .compare "kept" .equal (.text "ADMIN") := Visibility.restricted.inj h
      cases f with
      | compare field op operand =>
          obtain ⟨rfl, rfl, hoperand⟩ := Filter.compare.inj hfilter
          cases operand with
          | text s =>
              cases hoperand
              rfl
          | _ => cases hoperand
      | _ => cases hfilter

/-- Whether an operation on notes leaves an administrator this outcome, as far as its form tells. -/
def leaves (s : Schema) (op : Operation) (v : Visibility) : Bool :=
  (s.outcome true Warden.administrator op "Note").toOption.any fun v' =>
    decide (v'.tagged.compact = v.tagged.compact)

/-- The report is made of what the operation leaves. -/
theorem Given.textFor_of_leaves {v : Visibility} (h : Given read args a schemaText s payload)
    (htype : a.typeName = "Note") (hclaims : s.claimsOf payload = .ok Warden.administrator)
    (hv : leaves s a.op v = true) :
    textFor read args = .ok ((report s "Note" a.op v).pretty 0 ++ "\n") := by
  obtain ⟨v', houtcome, htagged⟩ := (Option.any_eq_true _ _).1 hv
  rw [toOption_eq_some_iff] at houtcome
  have htold : v'.told = v.told := (v'.tagged_eq_iff v).1
    (Json.compact_inj v'.bounded_tagged v.bounded_tagged (of_decide_eq_true htagged))
  rw [h.textFor_eq, hclaims, htype]
  simp only [houtcome, text_report_eq_iff.2 htold]

/-- What is at hand for both operations, the administrator's claims, and the two reports. -/
theorem files_given : ∃ s,
    (∀ op, Given files (noteArguments op) ⟨"notes.graphql", "admin.json", "Note", op⟩ noteText s
      (.object [("ROLE", .text "ADMIN")])) ∧
    s.claimsOf (.object [("ROLE", .text "ADMIN")]) = .ok Warden.administrator ∧
    textFor files (noteArguments .query) =
      .ok ((report s "Note" .query .unrestricted).pretty 0 ++ "\n") ∧
    (report s "Note" .query .unrestricted).pretty 0 ++ "\n" = seenText ∧
    textFor files (noteArguments .delete) =
      .ok ((report s "Note" .delete (.restricted keptNotes)).pretty 0 ++ "\n") := by
  -- All that has to be evaluated is evaluated here, on the one schema of the text.
  have hschema : ((Catalog.empty.loadText noteText).1.toOption.any fun s =>
      (s.find? "Note").isSome && s.descriptor.isNone && leaves s .query .unrestricted &&
        leaves s .delete (.restricted keptNotes) &&
        decide ((report s "Note" .query .unrestricted).pretty 0 ++ "\n" = seenText)) = true := by
    decide +kernel
  obtain ⟨s, hs, hschema⟩ := (Option.any_eq_true _ _).1 hschema
  simp only [Bool.and_eq_true, decide_eq_true_eq, toOption_eq_some_iff] at hs hschema
  obtain ⟨⟨⟨⟨hdefined, hplain⟩, hquery⟩, hdelete⟩, hseen⟩ := hschema
  have hgiven : ∀ op, Given files (noteArguments op) ⟨"notes.graphql", "admin.json", "Note", op⟩
      noteText s (.object [("ROLE", .text "ADMIN")]) := by
    refine fun op => ⟨?_, rfl, hs, hdefined, _, rfl, rfl⟩
    rw [noteArguments, Arguments.ofList, Operation.ofName?_name]
  have hclaims : s.claimsOf (.object [("ROLE", .text "ADMIN")]) = .ok Warden.administrator := by
    rw [Schema.claimsOf, Option.isNone_iff_eq_none.1 hplain]
    rfl
  exact ⟨s, hgiven, hclaims, (hgiven .query).textFor_of_leaves rfl hclaims hquery, hseen,
    (hgiven .delete).textFor_of_leaves rfl hclaims hdelete⟩

/-- The program says that an administrator sees every note, and may delete the notes that are kept
for administrators; and so does the desk, which has been asked before. -/
theorem explains_desk : ∃ s, deskAsked.store.complement = true ∧
    deskAsked.HasLoaded noteText askedBefore ∧
    (∀ op, Given files (noteArguments op) ⟨"notes.graphql", "admin.json", "Note", op⟩ noteText s
      (.object [("ROLE", .text "ADMIN")])) ∧
    textFor files (noteArguments .query) = .ok seenText ∧
    seenText = (report s "Note" .query .unrestricted).pretty 0 ++ "\n" ∧
    (report s "Note" .query .unrestricted).child? "outcome" =
      some (.object [("outcome", .text "unrestricted")]) ∧
    (deskAsked.perform
      (Warden.evaluate { claims := Warden.administrator } "Note" .query .filter)).1 =
        .ok (.visible .unrestricted) ∧
    textFor files (noteArguments .delete) =
      .ok ((report s "Note" .delete (.restricted keptNotes)).pretty 0 ++ "\n") ∧
    (report s "Note" .delete (.restricted keptNotes)).child? "outcome" =
      some (.object [
        ("filter", .object [("compare", .object [("field", .text "kept"), ("op", .text "eq"),
          ("value", .object [("String", .text "ADMIN")])])]),
        ("outcome", .text "restricted")]) ∧
    (deskAsked.perform
      (Warden.evaluate { claims := Warden.administrator } "Note" .delete .filter)).1 =
        .ok (.visible (.restricted keptNotes)) := by
  obtain ⟨s, hgiven, hclaims, hquery, hseen, hdelete⟩ := files_given
  have hcomplement : deskAsked.store.complement = true := by
    rw [deskAsked, Warden.store_after_loadText (hgiven .query).accepted not_accepted_askedBefore]
    rfl
  have hasked : ∀ o ∈ askedBefore, ∀ r, o.request? = some r →
      r.claims = Warden.administrator := by
    simp [askedBefore, Occurrence.request?, Demand.request?]
  have hapart : ∀ claims, s.claimsOf (.object [("ROLE", .text "ADMIN")]) = .ok claims →
      ∀ o ∈ askedBefore, ∀ r, o.request? = some r → OutcomeKey.Apart claims r.claims := by
    intro claims hread o ho r hr
    rw [hclaims] at hread
    rw [hasked o ho r hr, ← Except.ok.inj hread]
    exact OutcomeKey.apart_self Warden.administrator
  have hreads : ∀ claims, (deskAsked.perform
      (Warden.claimsOfToken (.object [("ROLE", .text "ADMIN")]))).1 = .ok claims →
      claims = Warden.administrator := by
    obtain ⟨generation, hcurrent, -⟩ := deskAsked_hasLoaded.ready (hgiven .query).accepted
    intro claims hread
    have hclaims' := (Warden.perform_claimsOfToken hcurrent _).symm.trans hread
    exact Except.ok.inj (hclaims'.symm.trans hclaims)
  have hanswered : ∀ op v,
      textFor files (noteArguments op) = .ok ((report s "Note" op v).pretty 0 ++ "\n") →
      (∀ {v' : Visibility}, v'.told = v.told → v' = v) →
      (report s "Note" op v).child? "outcome" = some v.tagged ∧
      (deskAsked.perform
        (Warden.evaluate { claims := Warden.administrator } "Note" op .filter)).1 =
          .ok (.visible v) := by
    intro op v htext htold
    obtain ⟨hreport, -⟩ := (explains_the_warden files (noteArguments op)).2 _ _ s _ (hgiven op)
      deskAsked askedBefore hcomplement deskAsked_hasLoaded hapart
    obtain ⟨claims, v', -, hchild, -, hunique, hclaimed, hanswer⟩ := hreport _ htext
    obtain rfl := htold ((hunique v).1 rfl)
    exact ⟨hchild, hanswer _ (hreads claims hclaimed).symm⟩
  obtain ⟨hquerySeen, hqueryAnswer⟩ := hanswered .query .unrestricted hquery told_unrestricted
  obtain ⟨hdeleteSeen, hdeleteAnswer⟩ := hanswered .delete _ hdelete told_keptNotes
  rw [Visibility.tagged_restricted, tagged_keptNotes] at hdeleteSeen
  exact ⟨s, hcomplement, deskAsked_hasLoaded, hgiven, hseen ▸ hquery, hseen.symm, hquerySeen,
    hqueryAnswer, hdelete, hdeleteSeen, hdeleteAnswer⟩

end Explain

end GraphWarden
