import GraphWarden.Proofs.Warden.Acting

/-!
# What a warden remembers

An outcome is remembered under the bytes of what it was worked out for.  A warden is
**faithful** to some claims when all that it remembers for them is what it would work out
anew.

A warden that remembers nothing is faithful, and one that just loaded a schema is.  It
stays so through every run of demands (`faithful_run`), as long as nobody else's claims
are mistaken for the given ones: the claims of each request must be `Apart` from them.
Claims are always apart from themselves (`apart_self`), because the bytes of a key with
given claims tell the type and the operation.
-/

namespace GraphWarden

/-! ### Keys -/

namespace OutcomeKey

/-- No key with the second claims is mistaken for one with the first. -/
def Apart (claims claims' : Claims) : Prop :=
  ∀ generation typeName op typeName' op',
    bytes ⟨generation, typeName', op', claims'⟩ = bytes ⟨generation, typeName, op, claims⟩ →
      typeName' = typeName ∧ op' = op ∧ claims' = claims

theorem textBytes_inj {s t : String} (h : textBytes s = textBytes t) : s = t := by
  rw [← String.toByteArray_inj]
  exact ByteArray.ext (Array.toList_inj.1 h)

/-- What follows the last separator is known, and so is what stands before it. -/
theorem eq_of_append_cons {α : Type} {x : α} {front back front' back' : List α}
    (h : front ++ x :: back = front' ++ x :: back') (hback : x ∉ back) (hback' : x ∉ back') :
    front = front' ∧ back = back' := by
  rcases List.append_eq_append_iff.1 h with ⟨rest, rfl, hrest⟩ | ⟨rest, rfl, hrest⟩
  · cases rest with
    | nil => simpa using hrest
    | cons y rest =>
        have hmem : x ∈ back := by
          rw [(List.cons.inj hrest).2]
          simp
        exact absurd hmem hback
  · cases rest with
    | nil => simpa using hrest.symm
    | cons y rest =>
        have hmem : x ∈ back' := by
          rw [(List.cons.inj hrest).2]
          simp
        exact absurd hmem hback'

/-- The names of operations have no byte that separates the parts of a key, so the name ends where
the next part begins. -/
theorem separator_not_mem_name (op : Operation) : (0 : UInt8) ∉ textBytes op.name := by
  cases op <;> decide +kernel

/-- Claims are never mistaken for themselves: under the same claims the bytes of a key tell the
type and the operation, because a name holds no separator. -/
theorem apart_self (claims : Claims) : Apart claims claims := by
  intro generation typeName op typeName' op' h
  simp only [bytes, List.append_assoc, List.append_cancel_left_eq, List.cons_append] at h
  rw [← List.cons_append, ← List.cons_append, ← List.append_assoc, ← List.append_assoc,
    List.append_cancel_right_eq] at h
  obtain ⟨htype, hop⟩ :=
    eq_of_append_cons h (separator_not_mem_name op') (separator_not_mem_name op)
  exact ⟨textBytes_inj htype, Operation.name_injective (textBytes_inj hop), rfl⟩

end OutcomeKey

/-! ### Entries -/

namespace Memo

variable {m : Memo} {k : OutcomeKey} {e : List UInt8 × Visibility}

/-- What is found was put in under the key. -/
theorem mem_of_get {v : Visibility} (h : (m.get k).1 = some v) : (k.bytes, v) ∈ m.entries := by
  unfold get find? at h
  cases hfind : m.entries.find? fun e => e.1 == k.bytes with
  | none => simp [hfind] at h
  | some found =>
      have hkey : found.1 = k.bytes := by simpa using List.find?_some hfind
      have hmem := List.mem_of_find?_eq_some hfind
      cases hlifetime : m.lifetime with
      | momentary => simp [hfind, hlifetime] at h
      | endless =>
          have hv : found.2 = v := by simpa [hfind, hlifetime] using h
          rw [← hkey, ← hv]
          exact hmem

/-- Looking up puts nothing in. -/
theorem mem_of_mem_get (h : e ∈ (m.get k).2.entries) : e ∈ m.entries := by
  unfold get at h
  split at h
  · exact h
  · split at h
    · exact h
    · exact (List.mem_filter.1 h).1

/-- What is left when entries are dropped for room was there before. -/
theorem mem_of_mem_evict (h : e ∈ m.evict.entries) : e ∈ m.entries := by
  have hfresh : e ∈ m.fresh → e ∈ m.entries := by
    unfold fresh
    split
    · exact id
    · simp
  unfold evict at h
  split at h
  · exact h
  · split at h
    · exact hfresh h
    · exact hfresh (List.mem_of_mem_drop h)

/-- A memo holds what it held, or what was put into it, and nothing else. -/
theorem mem_put {v : Visibility} (h : e ∈ (m.put k v).entries) :
    e ∈ m.entries ∨ e = (k.bytes, v) := by
  rcases List.mem_append.1 h with h | h
  · exact Or.inl (mem_of_mem_evict (List.mem_filter.1 h).1)
  · exact Or.inr (by simpa using h)

/-- What is remembered for these claims is what the rules leave visible. -/
def Faithful (m : Memo) (s : Schema) (complement : Bool) (claims : Claims) : Prop :=
  ∀ typeName op rule out, s.governingRule? typeName op = some rule →
    (OutcomeKey.bytes ⟨s.generation, typeName, op, claims⟩, out) ∈ m.entries →
      rule.visibility complement claims = .ok out

variable {s : Schema} {complement : Bool} {claims : Claims}

theorem faithful_of_nil (h : m.entries = []) : m.Faithful s complement claims := by
  intro typeName op rule out _ hmem
  simp [h] at hmem

/-- Looking up drops entries that are too old; what stays is still right. -/
theorem Faithful.get (h : m.Faithful s complement claims) :
    (m.get k).2.Faithful s complement claims :=
  fun typeName op rule out hrule hmem => h typeName op rule out hrule (mem_of_mem_get hmem)

/-- What is put in does no harm, when it is right and is not mistaken for anything else. -/
theorem Faithful.put (h : m.Faithful s complement claims) {typeName : String} {op : Operation}
    {claims' : Claims} (hapart : OutcomeKey.Apart claims claims') {rule : Rule}
    (hrule : s.governingRule? typeName op = some rule) {v : Visibility}
    (hv : rule.visibility complement claims' = .ok v) :
    (m.put ⟨s.generation, typeName, op, claims'⟩ v).Faithful s complement claims := by
  intro typeName' op' rule' out hrule' hmem
  rcases mem_put hmem with hmem | hnew
  · exact h typeName' op' rule' out hrule' hmem
  · obtain ⟨hkey, rfl⟩ := Prod.mk.inj hnew
    obtain ⟨rfl, rfl, rfl⟩ := hapart _ _ _ _ _ hkey.symm
    rw [hrule] at hrule'
    rw [← Option.some.inj hrule']
    exact hv

end Memo

/-! ### Acts -/

/-- What a warden remembers for these claims is what it would work out anew. -/
def Warden.Faithful (claims : Claims) (w : Warden) : Prop :=
  ∀ s m, w.catalog.current = some s → w.memo = some m →
    m.Faithful s w.store.complement claims

/-- Which demands a warden meets. -/
inductive Demand where
  | load (definition : SchemaDefinition)
  | loadText (text : String)
  | forget
  | claimsOfToken (payload : Json)
  | authorizeQuery (r : Request) (q : Query)
  | authorizePasswordCheck (r : Request) (q : Query)
  | query (r : Request) (q : Query)
  | authorizeWrite (r : Request) (op : Operation) (typeName : String) (ids : List String)
  | authorizeAdd (r : Request) (typeName : String)
  | evaluate (r : Request) (typeName : String) (op : Operation) (mode : Mode)

/-- The request that makes a demand, unless it is made by whoever runs the warden. -/
def Demand.request? : Demand → Option Request
  | authorizeQuery r _ | authorizePasswordCheck r _ | query r _ | authorizeWrite r _ _ _
  | authorizeAdd r _ | evaluate r _ _ _ => some r
  | load _ | loadText _ | forget | claimsOfToken _ => none

namespace Warden

variable {α β : Type} {w : Warden} {s : Schema} {r : Request} {claims : Claims}

/-- What becomes of a warden that meets a demand. -/
def serve (w : Warden) : Demand → Warden
  | .load definition => (w.perform (load definition)).2
  | .loadText text => (w.perform (loadText text)).2
  | .forget => (w.perform forget).2
  | .claimsOfToken payload => (w.perform (Warden.claimsOfToken payload)).2
  | .authorizeQuery r q => (w.perform (Warden.authorizeQuery r q)).2
  | .authorizePasswordCheck r q => (w.perform (Warden.authorizePasswordCheck r q)).2
  | .query r q => (w.perform (Warden.query r q)).2
  | .authorizeWrite r op typeName ids => (w.perform (Warden.authorizeWrite r op typeName ids)).2
  | .authorizeAdd r typeName => (w.perform (Warden.authorizeAdd r typeName)).2
  | .evaluate r typeName op mode => (w.perform (Warden.evaluate r typeName op mode)).2

/-- The act keeps a property of the warden, whether it succeeds or not. -/
def Keeps (P : Warden → Prop) (act : Act α) : Prop :=
  ∀ w, P w → P (w.perform act).2

variable {P : Warden → Prop}

theorem keeps_pure (x : α) : Keeps P (pure x) :=
  fun _ hw => hw

theorem keeps_throw (problem : AccessProblem) : Keeps P (throw problem : Act α) :=
  fun _ hw => hw

/-- Acts that keep a property one after the other keep it together.  The second act may depend on
what the first one gave. -/
theorem Keeps.bind {act : Act α} {next : α → Act β} (h : Keeps P act)
    (hnext : ∀ x, Keeps P (next x)) : Keeps P (act >>= next) := by
  intro w hw
  have hafter := h w hw
  rw [perform_bind]
  generalize w.perform act = done at hafter
  obtain ⟨result, after⟩ := done
  cases result with
  | ok x => exact hnext x after hafter
  | error problem => exact hafter

/-- A warden with this schema in force that is faithful to these claims. -/
structure Mindful (s : Schema) (claims : Claims) (w : Warden) : Prop where
  current : w.catalog.current = some s
  faithful : w.Faithful claims

theorem keeps_count (change : Meter → Meter) : Keeps (Mindful s claims) (count change) :=
  fun _ hw => ⟨hw.current, hw.faithful⟩

/-- Asking the store happens on the line and leaves the memo alone. -/
theorem keeps_ask (job : Client → Job α) : Keeps (Mindful s claims) (ask r job) := by
  intro w hw
  unfold ask
  rw [perform_bind_ok perform_get]
  generalize (job ⟨w.store, w.policy, r⟩).run w.line = done
  obtain ⟨result, line⟩ := done
  cases result with
  | ok x => exact ⟨hw.current, hw.faithful⟩
  | error problem => exact ⟨hw.current, hw.faithful⟩

/-- Looking up an outcome keeps the memo faithful, since at most old entries are dropped. -/
theorem keeps_lookUp (k : OutcomeKey) : Keeps (Mindful s claims) (lookUp k) := by
  intro w hw
  unfold lookUp
  rw [perform_bind_ok perform_get]
  cases hmemo : w.memo with
  | none => exact hw
  | some m =>
      have hkept : Mindful s claims { w with memo := some (m.get k).2 } := by
        refine ⟨hw.current, fun s' m' hs' hm' => ?_⟩
        rw [← Option.some.inj hm']
        exact (hw.faithful s' m hs' hmemo).get
      simp only
      rw [perform_bind_ok (perform_modify _)]
      cases (m.get k).1 with
      | none => exact ((keeps_count _).bind fun _ => keeps_pure none) _ hkept
      | some v => exact ((keeps_count _).bind fun _ => keeps_pure (some v)) _ hkept

/-- Whatever is worked out and put into the memo is right. -/
theorem keeps_visibility (hapart : OutcomeKey.Apart claims r.claims) (typeName : String)
    (op : Operation) : Keeps (Mindful s claims) (visibility s r typeName op) := by
  unfold visibility
  split
  · exact keeps_pure _
  · cases hrule : s.governingRule? typeName op with
    | none => exact keeps_pure _
    | some rule =>
        refine (keeps_lookUp _).bind fun found => ?_
        cases found with
        | some v => exact keeps_pure v
        | none =>
            intro w hw
            simp only
            rw [perform_bind_ok perform_get]
            cases hv : rule.visibility w.store.complement r.claims with
            | error problem => exact hw
            | ok v =>
                refine ⟨hw.current, fun s' m' hs' hm' => ?_⟩
                obtain ⟨m, hm, rfl⟩ := Option.map_eq_some_iff.1 hm'
                have hsame : s' = s := Option.some.inj (hs'.symm.trans hw.current)
                subst hsame
                exact (hw.faithful s' m hs' hm).put hapart hrule hv

/-- Working out several outcomes, one after the other, keeps a warden mindful, as each of them
does. -/
theorem keeps_visibilities (hapart : OutcomeKey.Apart claims r.claims) (op : Operation)
    (types : List String) : Keeps (Mindful s claims) (visibilities s r op types) := by
  induction types with
  | nil => exact keeps_pure []
  | cons t ts ih =>
      exact (keeps_visibility hapart t op).bind fun _ => ih.bind fun _ => keeps_pure _

/-- To find out of which kind a type is nothing is looked up in the memo. -/
theorem keeps_rootKind (typeName : String) : Keeps (Mindful s claims) (rootKind s typeName) := by
  unfold rootKind
  cases s.find? typeName with
  | none => exact keeps_throw _
  | some info => exact keeps_pure _

/-- Requests work with the schema in force. -/
theorem keeps_faithful {next : Schema → Act α}
    (hnext : ∀ s, Keeps (Mindful s claims) (next s)) :
    Keeps (Faithful claims) (schema >>= next) := by
  intro w hw
  cases hcurrent : w.catalog.current with
  | none =>
      rw [perform_bind, perform_schema_none hcurrent]
      exact hw
  | some s =>
      rw [perform_bind_ok (perform_schema hcurrent)]
      exact (hnext s w ⟨hcurrent, hw⟩).faithful

/-- Counting whether an act failed changes nothing but the counters, so it keeps whatever the act
keeps. -/
theorem keeps_counted {act : Act α} (h : Keeps (Faithful claims) act) :
    Keeps (Faithful claims) (counted act) := by
  intro w hw
  have hafter := h w hw
  rw [perform_counted_cases]
  generalize w.perform act = done at hafter
  obtain ⟨result, after⟩ := done
  cases result with
  | ok x => exact hafter
  | error problem => exact hafter

theorem keeps_count_faithful (change : Meter → Meter) :
    Keeps (Faithful claims) (count change) :=
  fun _ hw => hw

/-- A write is authorized by asking the store about nodes and not by outcomes, so nothing is
remembered for it. -/
theorem keeps_authorizeWrite (r : Request) (op : Operation) (typeName : String)
    (ids : List String) : Keeps (Faithful claims) (authorizeWrite r op typeName ids) :=
  (keeps_counted (keeps_faithful fun _ => keeps_ask _)).bind fun _ =>
    (keeps_count_faithful _).bind fun _ => keeps_pure _

/-- A warden that just loaded a schema remembers nothing, and one that did not accept a
schema goes on as before. -/
theorem keeps_activate {loaded : Except SchemaProblem Schema × Catalog}
    (hloaded : ∀ problem, loaded.1 = .error problem → loaded.2 = w.catalog)
    (hw : w.Faithful claims) : (w.perform (activate loaded)).2.Faithful claims := by
  obtain ⟨result, catalog⟩ := loaded
  unfold activate
  rw [perform_bind_ok (perform_modify _)]
  cases result with
  | error problem =>
      have hcatalog : catalog = w.catalog := hloaded problem rfl
      subst hcatalog
      exact hw
  | ok s =>
      intro s' m _ hm
      obtain ⟨m', _, rfl⟩ := Option.map_eq_some_iff.1 hm
      exact Memo.faithful_of_nil rfl

/-- A catalog stays as it is when a definition is not accepted. -/
theorem catalog_of_load {c : Catalog} {definition : SchemaDefinition} {problem : SchemaProblem}
    (h : (c.load definition).1 = .error problem) : (c.load definition).2 = c := by
  unfold Catalog.load at h ⊢
  cases hnext : c.next definition with
  | error _ => rfl
  | ok schema => simp [hnext] at h

/-- A text that cannot be read, and one whose definition is not accepted, leave the catalog as it
was. -/
theorem catalog_of_loadText {c : Catalog} {text : String} {problem : SchemaProblem}
    (h : (c.loadText text).1 = .error problem) : (c.loadText text).2 = c := by
  unfold Catalog.loadText at h ⊢
  cases hread : SchemaDefinition.ofText text with
  | error _ => rfl
  | ok definition =>
      simp only [hread] at h
      exact catalog_of_load h

/-- **A warden that remembers nothing is faithful**, to whomever. -/
theorem faithful_of_nothing (h : ∀ m, w.memo = some m → m.entries = []) :
    w.Faithful claims :=
  fun _ m _ hm => Memo.faithful_of_nil (h m hm)

/-- A load makes the warden forget if it is accepted, and changes nothing if it is not. -/
theorem keeps_load (definition : SchemaDefinition) :
    Keeps (Faithful claims) (load definition) := by
  intro w hw
  unfold load
  rw [perform_bind_ok perform_get]
  exact keeps_activate (fun _ => catalog_of_load) hw

/-- A load of a text leaves a faithful warden faithful, for whatever is put in force is met by an
empty memo. -/
theorem keeps_loadText (text : String) : Keeps (Faithful claims) (loadText text) := by
  intro w hw
  unfold loadText
  rw [perform_bind_ok perform_get]
  exact keeps_activate (fun _ => catalog_of_loadText) hw

/-- Forgetting on demand leaves nothing that could be wrong. -/
theorem keeps_forget : Keeps (Faithful claims) forget := by
  intro w _
  refine faithful_of_nothing fun m hm => ?_
  obtain ⟨m', _, rfl⟩ := Option.map_eq_some_iff.1 hm
  rfl

/-- To read claims from a token only the schema is needed. -/
theorem keeps_claimsOfToken (payload : Json) :
    Keeps (Faithful claims) (claimsOfToken payload) := by
  refine keeps_faithful fun s => ?_
  cases Claims.ofPayload (s.descriptor.map Descriptor.claimsKey) payload with
  | error flaw => exact keeps_throw _
  | ok claims => exact keeps_pure _

/-- Authorizing a query works out an outcome for every type in it, all for the claims of the
request: it keeps a warden faithful to claims that these are not mistaken for. -/
theorem keeps_authorizeQuery (hapart : OutcomeKey.Apart claims r.claims) (q : Query) :
    Keeps (Faithful claims) (authorizeQuery r q) := by
  refine (keeps_counted (keeps_faithful fun s => ?_)).bind fun _ =>
    (keeps_count_faithful _).bind fun _ => keeps_pure _
  refine (keeps_rootKind q.typeName).bind fun _ => ?_
  exact (keeps_visibilities hapart .query _).bind fun _ => keeps_pure _

/-- Authorizing a password check does the same with the outcomes of password rules. -/
theorem keeps_authorizePasswordCheck (hapart : OutcomeKey.Apart claims r.claims) (q : Query) :
    Keeps (Faithful claims) (authorizePasswordCheck r q) := by
  refine keeps_counted (keeps_faithful fun s => ?_)
  refine (keeps_rootKind q.typeName).bind fun _ => ?_
  refine (keeps_visibilities hapart .query _).bind fun _ => ?_
  exact (keeps_visibilities hapart .password _).bind fun _ => keeps_pure _

/-- A query looks up the outcomes of its types and asks the store what is left of it.  Only the
first of these adds to what is remembered, and what it adds is right. -/
theorem keeps_query (hapart : OutcomeKey.Apart claims r.claims) (q : Query) :
    Keeps (Faithful claims) (query r q) := by
  refine keeps_counted (keeps_faithful fun s => ?_)
  refine (keeps_rootKind q.typeName).bind fun kind => ?_
  refine (keeps_visibilities hapart .query _).bind fun vs => ?_
  refine (keeps_count _).bind fun _ => ?_
  split
  · exact keeps_ask _
  · exact keeps_ask _

/-- A rule that is evaluated on demand goes through the memo as a filter, and past it as a gate.
Either way a faithful warden stays so. -/
theorem keeps_evaluate (hapart : OutcomeKey.Apart claims r.claims) (typeName : String)
    (op : Operation) (mode : Mode) : Keeps (Faithful claims) (evaluate r typeName op mode) := by
  refine keeps_faithful fun s => ?_
  cases mode with
  | filter => exact (keeps_visibility hapart typeName op).bind fun _ => keeps_pure _
  | gate gated candidates =>
      simp only
      split
      · exact keeps_pure _
      · exact keeps_ask _

/-- What a request does to the memory is right for all whose claims are apart from its
own. -/
theorem faithful_serve {demand : Demand} (hw : w.Faithful claims)
    (hapart : ∀ r, demand.request? = some r → OutcomeKey.Apart claims r.claims) :
    (w.serve demand).Faithful claims := by
  cases demand with
  | load definition => exact keeps_load definition w hw
  | loadText text => exact keeps_loadText text w hw
  | forget => exact keeps_forget w hw
  | claimsOfToken payload => exact keeps_claimsOfToken payload w hw
  | authorizeQuery r q => exact keeps_authorizeQuery (hapart r rfl) q w hw
  | authorizePasswordCheck r q => exact keeps_authorizePasswordCheck (hapart r rfl) q w hw
  | query r q => exact keeps_query (hapart r rfl) q w hw
  | authorizeWrite r op typeName ids => exact keeps_authorizeWrite r op typeName ids w hw
  | authorizeAdd r typeName =>
      exact ((keeps_authorizeWrite r .add typeName _).bind fun _ => keeps_pure _) w hw
  | evaluate r typeName op mode => exact keeps_evaluate (hapart r rfl) typeName op mode w hw

/-- **A warden that is faithful to some claims stays so**, whatever is demanded of it by
requests whose claims are apart from them. -/
theorem faithful_run {demands : List Demand} (hw : w.Faithful claims)
    (hapart : ∀ demand ∈ demands, ∀ r, demand.request? = some r →
      OutcomeKey.Apart claims r.claims) :
    (demands.foldl serve w).Faithful claims := by
  induction demands generalizing w with
  | nil => exact hw
  | cons demand demands ih =>
      rw [List.foldl_cons]
      exact ih (faithful_serve hw (hapart demand List.mem_cons_self))
        fun d hd => hapart d (List.mem_cons_of_mem _ hd)

end Warden

end GraphWarden
