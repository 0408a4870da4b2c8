import GraphWarden.Proofs.Store.Shown
import GraphWarden.Proofs.Warden.Key

/-!
# Answers with and without a memory

A warden that remembers outcomes is compared with its **twin**, which has the same schema in
force, the same store, policy and line, and remembers nothing.  Schemas may also be put in
force by others who share the catalog, and then nobody tells the warden to forget.

What the warden remembers is `Truthful` about a set of keys that are all told apart by their
bytes: each entry stands under a generation that has been in force, and an entry of the
generation that is in force now is what the governing rule leaves visible.  Entries of older
generations may be anything, because generations only grow, so that they are never asked for
again.  Every act keeps the two wardens twins and gives both the same answer (`Agrees`), and
so does every run: **nobody can tell from the answers whether a warden remembers**
(`answers_without_memory`).
-/

namespace GraphWarden

/-! ### Loading -/

namespace Catalog

variable {c : Catalog} {definition : SchemaDefinition} {text : String}

/-- What loading makes of a catalog: a schema of the next generation is in force, or
nothing has changed. -/
def Advances (c : Catalog) (loaded : Except SchemaProblem Schema × Catalog) : Prop :=
  (∃ s, loaded = (.ok s, ⟨some s⟩) ∧ s.generation = c.generation + 1) ∨
    ∃ problem, loaded = (.error problem, c)

/-- A load of a definition puts a schema of the next generation in force, or changes nothing. -/
theorem advances_load : c.Advances (c.load definition) := by
  unfold load
  cases hnext : c.next definition with
  | error problem => exact Or.inr ⟨problem, rfl⟩
  | ok s =>
      obtain ⟨compiled, _, rfl⟩ := exists_of_map_eq_ok hnext
      exact Or.inl ⟨_, rfl, rfl⟩

/-- A load of a text goes on to a generation of its own, unless the text is none. -/
theorem advances_loadText : c.Advances (c.loadText text) := by
  unfold loadText
  cases SchemaDefinition.ofText text with
  | error problem => exact Or.inr ⟨problem, rfl⟩
  | ok definition => exact advances_load

/-- The generation of a catalog is that of the schema in force. -/
theorem generation_of_current {s : Schema} (h : c.current = some s) :
    c.generation = s.generation := by
  rw [generation, h, Option.map_some, Option.getD_some]

/-- Generations grow by one at most. -/
theorem Advances.generation_le {loaded : Except SchemaProblem Schema × Catalog}
    (h : c.Advances loaded) :
    c.generation ≤ loaded.2.generation ∧ loaded.2.generation ≤ c.generation + 1 := by
  rcases h with ⟨s, rfl, hs⟩ | ⟨problem, rfl⟩
  · have hgeneration : (⟨some s⟩ : Catalog).generation = s.generation := rfl
    simp only [hgeneration]
    omega
  · simp only
    omega

end Catalog

/-! ### Twins -/

/-- What is remembered about some keys: the generation of each has been in force, and what
is remembered about the one in force is what the governing rule leaves visible. -/
def Memo.Truthful (m : Memo) (keys : OutcomeKey → Prop) (c : Catalog) (complement : Bool) : Prop :=
  ∀ k out, keys k → (k.bytes, out) ∈ m.entries → k.generation ≤ c.generation ∧
    ∀ s, c.current = some s → k.generation = s.generation →
      ∃ rule, s.governingRule? k.typeName k.op = some rule ∧
        rule.visibility complement k.claims = .ok out

namespace Memo.Truthful

variable {m : Memo} {keys : OutcomeKey → Prop} {c : Catalog} {complement : Bool} {k : OutcomeKey}

theorem of_nil (h : m.entries = []) : m.Truthful keys c complement := by
  intro k out _ hmem
  simp [h] at hmem

/-- Looking up may drop entries, and takes no truth from those that stay. -/
theorem get (h : m.Truthful keys c complement) : (m.get k).2.Truthful keys c complement :=
  fun k' out hk' hmem => h k' out hk' (mem_of_mem_get hmem)

/-- What is worked out and put in is right, and is mistaken for nothing else. -/
theorem put (h : m.Truthful keys c complement)
    (hkeys : ∀ k k', keys k → keys k' → k.bytes = k'.bytes → k = k') (hk : keys k) {s : Schema}
    (hs : c.current = some s) (hgeneration : k.generation = s.generation) {rule : Rule}
    (hrule : s.governingRule? k.typeName k.op = some rule) {v : Visibility}
    (hv : rule.visibility complement k.claims = .ok v) :
    (m.put k v).Truthful keys c complement := by
  intro k' out hk' hmem
  rcases mem_put hmem with hold | hnew
  · exact h k' out hk' hold
  · obtain ⟨hbytes, rfl⟩ := Prod.mk.inj hnew
    have hsame : k' = k := hkeys k' k hk' hk hbytes
    subst hsame
    refine ⟨?_, fun s' hs' _ => ?_⟩
    · exact Nat.le_of_eq (hgeneration.trans (Catalog.generation_of_current hs).symm)
    · have hs'' : s' = s := Option.some.inj (hs'.symm.trans hs)
      subst hs''
      exact ⟨rule, hrule, hv⟩

/-- What is remembered about older generations is not asked for any more. -/
theorem advance (h : m.Truthful keys c complement)
    {loaded : Except SchemaProblem Schema × Catalog} (hloaded : c.Advances loaded) :
    m.Truthful keys loaded.2 complement := by
  rcases hloaded with ⟨s, rfl, hs⟩ | ⟨problem, rfl⟩
  · intro k out hk hmem
    have hold := (h k out hk hmem).1
    have hnow : (⟨some s⟩ : Catalog).generation = s.generation := rfl
    refine ⟨by simp only [hnow]; omega, fun s' hs' hgeneration => ?_⟩
    have hsame : s' = s := (Option.some.inj hs').symm
    subst hsame
    omega
  · exact h

end Memo.Truthful

namespace Warden

variable {α β : Type}

/-- The second warden is the first one without its memory, which is truthful. -/
structure Twins (keys : OutcomeKey → Prop) (c : Catalog) (w twin : Warden) : Prop where
  catalog : w.catalog = c
  sameCatalog : twin.catalog = c
  store : twin.store = w.store
  policy : twin.policy = w.policy
  line : twin.line = w.line
  forgetful : twin.memo = none
  truthful : ∀ m, w.memo = some m → m.Truthful keys c w.store.complement

variable {keys : OutcomeKey → Prop} {c : Catalog} {w twin : Warden} {s : Schema} {r : Request}

/-- The two wardens count in the same way, and what they have counted is no part of their likeness.
-/
theorem agrees_count (change : Meter → Meter) : Agrees (Twins keys c) (count change) :=
  fun _ _ h => ⟨rfl, { h with }⟩

/-- Twins ask the same store, on the same line. -/
theorem agrees_ask (r : Request) (job : Client → Job α) : Agrees (Twins keys c) (ask r job) := by
  intro w twin h
  unfold ask
  rw [perform_bind_ok perform_get, perform_bind_ok perform_get, h.store, h.policy, h.line]
  generalize (job ⟨w.store, w.policy, r⟩).run w.line = done
  obtain ⟨result, line⟩ := done
  cases result with
  | ok x => exact ⟨rfl, h.catalog, h.sameCatalog, rfl, rfl, rfl, h.forgetful, h.truthful⟩
  | error problem => exact ⟨rfl, h.catalog, h.sameCatalog, rfl, rfl, rfl, h.forgetful, h.truthful⟩

/-- Requests work with the schema that both have in force. -/
theorem agrees_schema {next : Schema → Act α}
    (hnext : ∀ s, c.current = some s → Agrees (Twins keys c) (next s)) :
    Agrees (Twins keys c) (schema >>= next) := by
  intro w twin h
  cases hcurrent : c.current with
  | none =>
      have hschema : ∀ w : Warden, w.catalog = c →
          w.perform (schema >>= next) = (.error .noSchema, w) := by
        intro w hw
        rw [perform_bind, perform_schema_none (by rw [hw, hcurrent])]
      rw [hschema w h.catalog, hschema twin h.sameCatalog]
      exact ⟨rfl, h⟩
  | some s =>
      have hs : w.catalog.current = some s := by rw [h.catalog, hcurrent]
      have hs' : twin.catalog.current = some s := by rw [h.sameCatalog, hcurrent]
      rw [perform_bind_ok (perform_schema hs), perform_bind_ok (perform_schema hs')]
      exact hnext s hcurrent w twin h

/-- Looking up finds nothing but what was put in, and the twin finds nothing. -/
theorem twins_lookUp (h : Twins keys c w twin) (k : OutcomeKey) :
    ∃ found w', w.perform (lookUp k) = (.ok found, w') ∧
      twin.perform (lookUp k) = (.ok none, twin) ∧ Twins keys c w' twin ∧
      ∀ v, found = some v → ∃ m, w.memo = some m ∧ (k.bytes, v) ∈ m.entries := by
  have htwin : twin.perform (lookUp k) = (.ok none, twin) := by
    unfold lookUp
    rw [perform_bind_ok perform_get, h.forgetful]
    rfl
  unfold lookUp
  rw [perform_bind_ok perform_get]
  cases hmemo : w.memo with
  | none => exact ⟨none, w, rfl, htwin, h, by simp⟩
  | some m =>
      have hkept : ∀ meter, Twins keys c { w with memo := some (m.get k).2, meter } twin := by
        intro meter
        refine ⟨h.catalog, h.sameCatalog, h.store, h.policy, h.line, h.forgetful, fun m' hm' => ?_⟩
        rw [← Option.some.inj hm']
        exact (h.truthful m hmemo).get
      simp only
      rw [perform_bind_ok (perform_modify _)]
      cases hfound : (m.get k).1 with
      | none => exact ⟨none, _, rfl, htwin, hkept _, by simp⟩
      | some v =>
          refine ⟨some v, _, rfl, htwin, hkept _, fun v' hv' => ⟨m, rfl, ?_⟩⟩
          exact Option.some.inj hv' ▸ Memo.mem_of_get hfound

/-- **What a request may see does not show whether it was remembered.**  The twin, which remembers
nothing, works out what the other one finds, and the same comes of it because what is remembered is
what the rule leaves visible. -/
theorem agrees_visibility (hkeys : ∀ k k', keys k → keys k' → k.bytes = k'.bytes → k = k')
    (hs : c.current = some s) {typeName : String} {op : Operation}
    (hk : keys ⟨s.generation, typeName, op, r.claims⟩) :
    Agrees (Twins keys c) (visibility s r typeName op) := by
  unfold visibility
  split
  · exact agrees_pure _
  · cases hrule : s.governingRule? typeName op with
    | none => exact agrees_pure _
    | some rule =>
        intro w twin h
        obtain ⟨found, w', hperform, htwin, h', hfound⟩ :=
          twins_lookUp h ⟨s.generation, typeName, op, r.claims⟩
        simp only
        rw [perform_bind_ok hperform, perform_bind_ok htwin]
        simp only
        rw [perform_bind_ok perform_get]
        have hforgets : ∀ v, twin.memo.map (fun m =>
            m.put ⟨s.generation, typeName, op, r.claims⟩ v) = none := by
          intro v
          rw [h'.forgetful]
          rfl
        cases found with
        | some v =>
            -- the twin works out anew what was remembered
            obtain ⟨m, hm, hmem⟩ := hfound v rfl
            obtain ⟨_, hright⟩ := h.truthful m hm _ v hk hmem
            obtain ⟨rule', hrule', hv⟩ := hright s hs rfl
            have hsame : rule' = rule := Option.some.inj (hrule'.symm.trans hrule)
            subst hsame
            rw [h.store, hv]
            refine ⟨rfl, h'.catalog, h'.sameCatalog, h'.store, h'.policy, h'.line, ?_, h'.truthful⟩
            exact hforgets v
        | none =>
            simp only
            rw [perform_bind_ok perform_get, h'.store]
            cases hv : rule.visibility w'.store.complement r.claims with
            | error problem => exact ⟨rfl, h'⟩
            | ok v =>
                refine ⟨rfl, h'.catalog, h'.sameCatalog, h'.store, h'.policy, h'.line, ?_,
                  fun m' hm' => ?_⟩
                · exact hforgets v
                · obtain ⟨m, hm, rfl⟩ := Option.map_eq_some_iff.1 hm'
                  exact (h'.truthful m hm).put hkeys hk hs rfl hrule hv

/-- Working out several outcomes gives both wardens the same, one after the other, whichever of
these the first one remembers. -/
theorem agrees_visibilities (hkeys : ∀ k k', keys k → keys k' → k.bytes = k'.bytes → k = k')
    (hs : c.current = some s) {op : Operation}
    (hk : ∀ typeName, keys ⟨s.generation, typeName, op, r.claims⟩) (types : List String) :
    Agrees (Twins keys c) (visibilities s r op types) := by
  induction types with
  | nil => exact agrees_pure []
  | cons t ts ih =>
      exact (agrees_visibility hkeys hs (hk t)).bind fun _ => ih.bind fun _ => agrees_pure _

/-- The kind of a type comes from the schema, which both have in force. -/
theorem agrees_rootKind (typeName : String) : Agrees (Twins keys c) (rootKind s typeName) := by
  unfold rootKind
  cases s.find? typeName with
  | none => exact agrees_throw _
  | some info => exact agrees_pure _

/-! ### Requests -/

section Requests

variable (hkeys : ∀ k k', keys k → keys k' → k.bytes = k'.bytes → k = k')
  (hasked : ∀ s, c.current = some s → ∀ typeName op, keys ⟨s.generation, typeName, op, r.claims⟩)

include hkeys hasked

/-- A query is authorized alike by both, as the outcomes it is authorized with are the same. -/
theorem agrees_authorizeQuery (q : Query) : Agrees (Twins keys c) (authorizeQuery r q) := by
  refine (Agrees.counted agrees_count (agrees_schema fun s hs => ?_)).bind fun _ =>
    (agrees_count _).bind fun _ => agrees_pure _
  refine (agrees_rootKind q.typeName).bind fun _ => ?_
  exact (agrees_visibilities hkeys hs (hasked s hs · .query) _).bind fun _ => agrees_pure _

/-- A password check is answered alike with and without a memory, though it needs the outcomes of
two operations. -/
theorem agrees_authorizePasswordCheck (q : Query) :
    Agrees (Twins keys c) (authorizePasswordCheck r q) := by
  refine Agrees.counted agrees_count (agrees_schema fun s hs => ?_)
  refine (agrees_rootKind q.typeName).bind fun _ => ?_
  refine (agrees_visibilities hkeys hs (hasked s hs · .query) _).bind fun _ => ?_
  exact (agrees_visibilities hkeys hs (hasked s hs · .password) _).bind fun _ => agrees_pure _

/-- A query is answered alike: it is authorized alike, and then sent to the same store. -/
theorem agrees_query (q : Query) : Agrees (Twins keys c) (query r q) := by
  refine Agrees.counted agrees_count (agrees_schema fun s hs => ?_)
  refine (agrees_rootKind q.typeName).bind fun kind => ?_
  refine (agrees_visibilities hkeys hs (hasked s hs · .query) _).bind fun vs => ?_
  refine (agrees_count _).bind fun _ => ?_
  split
  · exact agrees_ask _ _
  · exact agrees_ask _ _

/-- A rule that is evaluated gives both the same verdict, whether it is asked for a filter or as a
gate. -/
theorem agrees_evaluate (typeName : String) (op : Operation) (mode : Mode) :
    Agrees (Twins keys c) (evaluate r typeName op mode) := by
  refine agrees_schema fun s hs => ?_
  cases mode with
  | filter =>
      exact (agrees_visibility hkeys hs (hasked s hs typeName op)).bind fun _ => agrees_pure _
  | gate gated candidates =>
      simp only
      split
      · exact agrees_pure _
      · exact agrees_ask _ _

end Requests

/-- A write looks at rules and nodes and at no outcome, so the memory of the one plays no part in
it. -/
theorem agrees_authorizeWrite (r : Request) (op : Operation) (typeName : String)
    (ids : List String) : Agrees (Twins keys c) (authorizeWrite r op typeName ids) :=
  (Agrees.counted agrees_count (agrees_schema fun _ _ => agrees_ask _ _)).bind fun _ =>
    (agrees_count _).bind fun _ => agrees_pure _

/-- Claims are read from a token in the same way. -/
theorem agrees_claimsOfToken (payload : Json) :
    Agrees (Twins keys c) (claimsOfToken payload) := by
  refine agrees_schema fun s _ => ?_
  cases Claims.ofPayload (s.descriptor.map Descriptor.claimsKey) payload with
  | error flaw => exact agrees_throw _
  | ok claims => exact agrees_pure _

/-- When the memory is cleared, the twins are twins as before. -/
theorem agrees_forget : Agrees (Twins keys c) forget := by
  intro w twin h
  refine ⟨rfl, h.catalog, h.sameCatalog, h.store, h.policy, h.line, ?_, fun m hm => ?_⟩
  · simp [forget, h.forgetful]
  · obtain ⟨m', _, rfl⟩ := Option.map_eq_some_iff.1 hm
    exact Memo.Truthful.of_nil rfl

/-- A schema is put in force by whoever shares the catalog. -/
def adopt (load : Catalog → Except SchemaProblem Schema × Catalog) : Act Nat := do
  let loaded := load (← get).catalog
  modify fun w => { w with catalog := loaded.2 }
  match loaded.1 with
  | .ok s => pure s.generation
  | .error problem => throw (.schema problem)

/-- A warden that puts a schema in force forgets, and its twin has nothing to forget. -/
theorem twins_activate {loaded : Except SchemaProblem Schema × Catalog}
    (hloaded : c.Advances loaded) (h : Twins keys c w twin) :
    (w.perform (activate loaded)).1 = (twin.perform (activate loaded)).1 ∧
      Twins keys loaded.2 (w.perform (activate loaded)).2 (twin.perform (activate loaded)).2 := by
  unfold activate
  rw [perform_bind_ok (perform_modify _), perform_bind_ok (perform_modify _)]
  rcases hloaded with ⟨s, rfl, _⟩ | ⟨problem, rfl⟩
  · refine ⟨rfl, rfl, rfl, h.store, h.policy, h.line, ?_, fun m hm => ?_⟩
    · show twin.memo.map Memo.clear = none
      rw [h.forgetful]
      rfl
    · obtain ⟨m', _, rfl⟩ := Option.map_eq_some_iff.1 hm
      exact Memo.Truthful.of_nil rfl
  · exact ⟨rfl, rfl, rfl, h.store, h.policy, h.line, h.forgetful, h.truthful⟩

/-- A load is accepted by both or by none.  If it is, the one with a memory forgets what it held,
and the new generation is ahead of every entry that others might have left. -/
theorem twins_load (definition : SchemaDefinition) (h : Twins keys c w twin) :
    (w.perform (Warden.load definition)).1 = (twin.perform (Warden.load definition)).1 ∧
      Twins keys (c.load definition).2 (w.perform (Warden.load definition)).2
        (twin.perform (Warden.load definition)).2 := by
  unfold Warden.load
  rw [perform_bind_ok perform_get, perform_bind_ok perform_get, h.catalog, h.sameCatalog]
  exact twins_activate Catalog.advances_load h

/-- Loads of texts keep the two wardens twins. -/
theorem twins_loadText (text : String) (h : Twins keys c w twin) :
    (w.perform (loadText text)).1 = (twin.perform (loadText text)).1 ∧
      Twins keys (c.loadText text).2 (w.perform (loadText text)).2
        (twin.perform (loadText text)).2 := by
  unfold loadText
  rw [perform_bind_ok perform_get, perform_bind_ok perform_get, h.catalog, h.sameCatalog]
  exact twins_activate Catalog.advances_loadText h

/-- What a warden goes on to remember, while others load, stays truthful. -/
theorem twins_adopt {load : Catalog → Except SchemaProblem Schema × Catalog}
    (hload : c.Advances (load c)) (h : Twins keys c w twin) :
    (w.perform (adopt load)).1 = (twin.perform (adopt load)).1 ∧
      Twins keys (load c).2 (w.perform (adopt load)).2 (twin.perform (adopt load)).2 := by
  unfold adopt
  rw [perform_bind_ok perform_get, perform_bind_ok perform_get, h.catalog, h.sameCatalog]
  simp only
  rw [perform_bind_ok (perform_modify _), perform_bind_ok (perform_modify _)]
  have htruthful := fun m hm => (h.truthful m hm).advance hload
  cases (load c).1 with
  | ok s => exact ⟨rfl, rfl, rfl, h.store, h.policy, h.line, h.forgetful, htruthful⟩
  | error problem => exact ⟨rfl, rfl, rfl, h.store, h.policy, h.line, h.forgetful, htruthful⟩

end Warden

/-! ### Runs -/

/-- What a warden answers. -/
inductive Reply where
  | loaded (generation : Nat)
  | done
  | claims (claims : Claims)
  | restricted (q : Query)
  | records (records : List Record)
  | allowed (ids : List String)
  | mayAdd (b : Bool)
  | verdict (v : Verdict)

/-- What happens to a warden: something is demanded of it, or a schema is loaded by others
who share its catalog. -/
inductive Occurrence where
  | demand (d : Demand)
  | loadElsewhere (definition : SchemaDefinition)
  | loadTextElsewhere (text : String)

/-- The request that makes a demand, if one is made. -/
def Occurrence.request? : Occurrence → Option Request
  | demand d => d.request?
  | loadElsewhere _ | loadTextElsewhere _ => none

/-- How a warden meets a demand. -/
def Demand.act : Demand → Act Reply
  | load definition => do return .loaded (← Warden.load definition)
  | loadText text => do return .loaded (← Warden.loadText text)
  | forget => do
    Warden.forget
    return .done
  | claimsOfToken payload => do return .claims (← Warden.claimsOfToken payload)
  | authorizeQuery r q => do return .restricted (← Warden.authorizeQuery r q)
  | authorizePasswordCheck r q => do return .restricted (← Warden.authorizePasswordCheck r q)
  | query r q => do return .records (← Warden.query r q)
  | authorizeWrite r op typeName ids => do
    return .allowed (← Warden.authorizeWrite r op typeName ids)
  | authorizeAdd r typeName => do return .mayAdd (← Warden.authorizeAdd r typeName)
  | evaluate r typeName op mode => do return .verdict (← Warden.evaluate r typeName op mode)

/-- What happens to a warden, as an act. -/
def Occurrence.act : Occurrence → Act Reply
  | demand d => d.act
  | loadElsewhere definition => do
    return .loaded (← Warden.adopt fun c => c.load definition)
  | loadTextElsewhere text => do
    return .loaded (← Warden.adopt fun c => c.loadText text)

namespace Warden

/-- What a warden answers along a run. -/
def answers (w : Warden) : List Occurrence → List (Except AccessProblem Reply)
  | [] => []
  | o :: run => (w.perform o.act).1 :: answers (w.perform o.act).2 run

/-- The keys under which outcomes may be looked up along a run: for the claims of its
requests, and the generations that may be in force. -/
def MayAsk (w : Warden) (run : List Occurrence) (k : OutcomeKey) : Prop :=
  k.generation ≤ w.catalog.generation + run.length ∧
    ∃ o ∈ run, ∃ r, o.request? = some r ∧ k.claims = r.claims

variable {α β : Type} {keys : OutcomeKey → Prop} {c : Catalog} {w twin : Warden}

/-- What a demand leaves behind does not depend on what is made of its answer. -/
theorem perform_demand (w : Warden) (d : Demand) : (w.perform d.act).2 = w.serve d := by
  have hanswered : ∀ {α : Type} (act : Act α) (f : α → Reply),
      (w.perform (do return f (← act))).2 = (w.perform act).2 := by
    intro α act f
    rw [perform_bind]
    obtain ⟨result, after⟩ := w.perform act
    cases result with
    | error problem => rfl
    | ok x => rfl
  cases d with
  | forget => rfl
  | load _ | loadText _ | claimsOfToken _ | authorizeQuery _ _ | authorizePasswordCheck _ _
  | query _ _ | authorizeWrite _ _ _ _ | authorizeAdd _ _ | evaluate _ _ _ _ =>
      exact hanswered _ _

/-- What is made of an answer does not tell the wardens apart either. -/
theorem agree_map {R : Warden → Warden → Prop} {act : Act α} {f : α → β}
    (h : (w.perform act).1 = (twin.perform act).1 ∧ R (w.perform act).2 (twin.perform act).2) :
    (w.perform (do return f (← act))).1 = (twin.perform (do return f (← act))).1 ∧
      R (w.perform (do return f (← act))).2 (twin.perform (do return f (← act))).2 := by
  obtain ⟨hanswer, hafter⟩ := h
  rw [perform_bind, perform_bind]
  generalize w.perform act = done at hanswer hafter
  generalize twin.perform act = done' at hanswer hafter
  obtain ⟨answer, after⟩ := done
  obtain ⟨answer', after'⟩ := done'
  have hsame : answer = answer' := hanswer
  subst hsame
  cases answer with
  | ok x => exact ⟨rfl, hafter⟩
  | error problem => exact ⟨rfl, hafter⟩

/-- A request leaves twins twins, and gets the same answer from both. -/
theorem agrees_request (hkeys : ∀ k k', keys k → keys k' → k.bytes = k'.bytes → k = k')
    {d : Demand} {r : Request} (hd : d.request? = some r)
    (hasked : ∀ s, c.current = some s → ∀ typeName op,
      keys ⟨s.generation, typeName, op, r.claims⟩) : Agrees (Twins keys c) d.act := by
  intro w twin h
  cases d with
  | load _ | loadText _ | forget | claimsOfToken _ => simp [Demand.request?] at hd
  | authorizeQuery r' q =>
      cases hd
      exact agree_map (agrees_authorizeQuery hkeys hasked q w twin h)
  | authorizePasswordCheck r' q =>
      cases hd
      exact agree_map (agrees_authorizePasswordCheck hkeys hasked q w twin h)
  | query r' q =>
      cases hd
      exact agree_map (agrees_query hkeys hasked q w twin h)
  | authorizeWrite r' op typeName ids =>
      exact agree_map (agrees_authorizeWrite r' op typeName ids w twin h)
  | authorizeAdd r' typeName =>
      have hadd : Agrees (Twins keys c) (authorizeAdd r' typeName) :=
        (agrees_authorizeWrite r' .add typeName [newNode]).bind fun _ => agrees_pure _
      exact agree_map (hadd w twin h)
  | evaluate r' typeName op mode =>
      cases hd
      exact agree_map (agrees_evaluate hkeys hasked typeName op mode w twin h)

/-- **Whatever happens, twins stay twins**, and they answer alike.  Requests leave the catalog as
it is, and loads move both wardens to one catalog, at most one generation on. -/
theorem twins_step (hkeys : ∀ k k', keys k → keys k' → k.bytes = k'.bytes → k = k')
    {o : Occurrence} (hasked : ∀ r, o.request? = some r → ∀ s, c.current = some s →
      ∀ typeName op, keys ⟨s.generation, typeName, op, r.claims⟩) (h : Twins keys c w twin) :
    (w.perform o.act).1 = (twin.perform o.act).1 ∧
      ∃ c', c'.generation ≤ c.generation + 1 ∧
        Twins keys c' (w.perform o.act).2 (twin.perform o.act).2 := by
  have hstay : ∀ {act : Act Reply}, Agrees (Twins keys c) act →
      (w.perform act).1 = (twin.perform act).1 ∧ ∃ c', c'.generation ≤ c.generation + 1 ∧
        Twins keys c' (w.perform act).2 (twin.perform act).2 := by
    intro act hact
    obtain ⟨hanswer, hafter⟩ := hact w twin h
    exact ⟨hanswer, c, Nat.le_succ _, hafter⟩
  have hmove : ∀ {act : Act Nat} {loaded : Except SchemaProblem Schema × Catalog},
      c.Advances loaded → (w.perform act).1 = (twin.perform act).1 ∧
        Twins keys loaded.2 (w.perform act).2 (twin.perform act).2 →
      (w.perform (do return Reply.loaded (← act))).1 =
          (twin.perform (do return Reply.loaded (← act))).1 ∧
        ∃ c', c'.generation ≤ c.generation + 1 ∧
          Twins keys c' (w.perform (do return Reply.loaded (← act))).2
            (twin.perform (do return Reply.loaded (← act))).2 := by
    intro act loaded hloaded hact
    obtain ⟨hanswer, hafter⟩ := agree_map hact
    exact ⟨hanswer, loaded.2, hloaded.generation_le.2, hafter⟩
  cases o with
  | loadElsewhere definition =>
      exact hmove Catalog.advances_load (twins_adopt Catalog.advances_load h)
  | loadTextElsewhere text =>
      exact hmove Catalog.advances_loadText (twins_adopt Catalog.advances_loadText h)
  | demand d =>
      cases hrequest : d.request? with
      | some r => exact hstay (agrees_request hkeys hrequest (hasked r hrequest))
      | none =>
          cases d with
          | load definition =>
              exact hmove Catalog.advances_load (twins_load definition h)
          | loadText text =>
              exact hmove Catalog.advances_loadText (twins_loadText text h)
          | forget => exact hstay (agrees_forget.bind fun _ => agrees_pure _)
          | claimsOfToken payload =>
              exact hstay ((agrees_claimsOfToken payload).bind fun _ => agrees_pure _)
          | authorizeQuery _ _ | authorizePasswordCheck _ _ | query _ _ | authorizeWrite _ _ _ _
          | authorizeAdd _ _ | evaluate _ _ _ _ => simp [Demand.request?] at hrequest

/-- **Twins give the same answers to every run.**  The keys that the run may ask for have to be told
apart by their bytes, at every generation that may come into force on the way. -/
theorem answers_eq_of_twins (hkeys : ∀ k k', keys k → keys k' → k.bytes = k'.bytes → k = k')
    {run : List Occurrence} : ∀ {c : Catalog} {w twin : Warden},
      (∀ o ∈ run, ∀ r, o.request? = some r → ∀ generation ≤ c.generation + run.length,
        ∀ typeName op, keys ⟨generation, typeName, op, r.claims⟩) →
      Twins keys c w twin → w.answers run = twin.answers run := by
  induction run with
  | nil =>
      intro c w twin _ _
      rfl
  | cons o run ih =>
      intro c w twin hasked h
      have hnow : ∀ r, o.request? = some r → ∀ s, c.current = some s →
          ∀ typeName op, keys ⟨s.generation, typeName, op, r.claims⟩ := by
        intro r hr s hs
        refine hasked o List.mem_cons_self r hr s.generation ?_
        rw [Catalog.generation_of_current hs]
        omega
      obtain ⟨hanswer, c', hgeneration, hafter⟩ := twins_step hkeys hnow h
      have hlater : ∀ o ∈ run, ∀ r, o.request? = some r →
          ∀ generation ≤ c'.generation + run.length, ∀ typeName op,
            keys ⟨generation, typeName, op, r.claims⟩ := by
        intro o' ho' r hr generation hle
        refine hasked o' (List.mem_cons_of_mem _ ho') r hr generation ?_
        rw [List.length_cons]
        omega
      rw [answers, answers, hanswer, ih hlater hafter]

/-- **A memory that starts out empty never shows.**  Along every run of loads, here or
elsewhere, accepted or not, of orders to forget and of requests, a warden answers as it
would if it remembered nothing, whatever the capacity of its memory and the lifetime of
entries; as long as the keys under which outcomes may be looked up have different bytes. -/
theorem answers_without_memory {m : Memo} (hm : w.memo = some m) (hempty : m.entries = [])
    {run : List Occurrence}
    (hapart : ∀ k k', w.MayAsk run k → w.MayAsk run k' → k.bytes = k'.bytes → k = k') :
    w.answers run = { w with memo := none }.answers run := by
  refine answers_eq_of_twins hapart (c := w.catalog) ?_ ?_
  · intro o ho r hr generation hle typeName op
    exact ⟨hle, o, ho, r, hr, rfl⟩
  · refine ⟨rfl, rfl, rfl, rfl, rfl, rfl, fun m' hm' => ?_⟩
    have hsame : m' = m := Option.some.inj (hm'.symm.trans hm)
    subst hsame
    exact Memo.Truthful.of_nil hempty

/-- Notes that only administrators may see. -/
def guardedNotes : SchemaDefinition where
  types := [TypeDefinition.withRule { name := "Note", kind := .object } .query
    (.rule "\x7b $ROLE: \x7b eq: \"ADMIN\" \x7d \x7d")]

/-- A warden that remembers one outcome at a time. -/
def desk : Warden where
  catalog := (Catalog.empty.load guardedNotes).2
  store := { graph := .ofList [⟨"n1", "Note", [], .empty⟩] }
  memo := some { capacity := 1, lifetime := .endless }

def administrator : Claims :=
  Claims.none.claiming "ROLE" (.text "ADMIN")

/-- Two people ask by turns, until the notes are thrown open. -/
def busyDay : List Occurrence :=
  [.demand (.query {} { typeName := "Note" }),
    .demand (.query { claims := administrator } { typeName := "Note" }),
    .demand (.loadText "type"),
    .demand (.query { claims := administrator } { typeName := "Note" }),
    .loadElsewhere { types := [{ name := "Note", kind := .object }] },
    .demand (.evaluate {} "Note" .query .filter),
    .demand .forget,
    .demand (.authorizeQuery {} { typeName := "Note" })]

/-- On a busy day no key is asked for that could be taken for another one. -/
theorem busyDay_separable {k : OutcomeKey} (h : desk.MayAsk busyDay k) :
    k.generation < 256 ^ 8 ∧ OutcomeKey.Separable k.claims.byName.entries := by
  obtain ⟨hgeneration, o, ho, r, hr, hclaims⟩ := h
  have hcount : desk.catalog.generation + busyDay.length < 256 ^ 8 := by decide +kernel
  have hnobody : OutcomeKey.Separable Claims.none.byName.entries := by
    intro e he
    cases he
  have hadministrator : OutcomeKey.Separable administrator.byName.entries := by
    intro e he
    obtain rfl := List.mem_singleton.1 he
    exact ⟨by decide, trivial⟩
  refine ⟨lt_of_le_of_lt hgeneration hcount, ?_⟩
  rw [hclaims]
  simp only [busyDay, List.mem_cons, List.not_mem_nil, or_false] at ho
  rcases ho with rfl | rfl | rfl | rfl | rfl | rfl | rfl | rfl <;>
    simp only [Occurrence.request?, Demand.request?, reduceCtorEq, Option.some.injEq] at hr <;>
    subst hr <;> first | exact hnobody | exact hadministrator

/-- The desk fails once on that day and answers otherwise, just as it would without a memory. -/
theorem desk_answers_without_memory :
    (desk.answers busyDay).map Except.isOk = [true, true, false, true, true, true, true, true] ∧
      desk.answers busyDay = { desk with memo := none }.answers busyDay := by
  refine ⟨by decide +kernel, answers_without_memory rfl rfl fun k k' hk hk' h => ?_⟩
  obtain ⟨hgeneration, hseparable⟩ := busyDay_separable hk
  obtain ⟨hgeneration', hseparable'⟩ := busyDay_separable hk'
  exact OutcomeKey.eq_of_separable hgeneration hgeneration' hseparable hseparable' h

end Warden

end GraphWarden
