import GraphWarden.Proofs.Warden.Transparency

/-!
# What demands leave alone

A demand that neither loads a schema nor asks for a write does little to a warden: time passes
on its line, outcomes are remembered or forgotten, and things are counted, but not the nodes
that writes leave out.  Whatever relation between wardens allows that much is a `Frame`, and
holds between a warden and what the demand makes of it (`leaves_plain`), whether the demand is
met or fails.

A write does the same until it is counted (`leaves_authorize`).
-/

namespace GraphWarden

namespace Warden

variable {α β : Type} {R : Warden → Warden → Prop}

/-- A relation that allows time to pass, and whatever is remembered and counted, except the
nodes that writes leave out. -/
structure Frame (R : Warden → Warden → Prop) : Prop where
  refl : ∀ w, R w w
  trans : ∀ {w w' w''}, R w w' → R w' w'' → R w w''
  line : ∀ (w : Warden) (line : Line), R w { w with line }
  memo : ∀ (w : Warden) (memo : Option Memo), R w { w with memo }
  count : ∀ (w : Warden) (change : Meter → Meter), (∀ m, (change m).excluded = m.excluded) →
    R w { w with meter := w.meter.map change }

/-- The act leaves every warden related to what it was, whether it succeeds or not. -/
def Leaves (R : Warden → Warden → Prop) (act : Act α) : Prop :=
  ∀ w : Warden, R w (w.perform act).2

/-- What the act that follows may use of the warden does not matter. -/
theorem leaves_get {next : Warden → Act α} (hnext : ∀ w, Leaves R (next w)) :
    Leaves R (get >>= next) := by
  intro w
  rw [perform_bind_ok perform_get]
  exact hnext w w

section Frames

variable (hR : Frame R)
include hR

theorem leaves_pure (x : α) : Leaves R (pure x) :=
  hR.refl

theorem leaves_throw (problem : AccessProblem) : Leaves R (throw problem : Act α) :=
  hR.refl

/-- Counting is allowed, except for nodes that a write left out. -/
theorem leaves_count (change : Meter → Meter) (h : ∀ m, (change m).excluded = m.excluded) :
    Leaves R (count change) :=
  fun w => hR.count w change h

theorem leaves_remember (k : OutcomeKey) (v : Visibility) : Leaves R (remember k v) :=
  fun w => hR.memo w _

theorem leaves_forget : Leaves R forget :=
  fun w => hR.memo w _

/-- What two acts leave alone one by one they leave alone one after the other, whether the second
is reached or not. -/
theorem Leaves.bind {act : Act α} {next : α → Act β} (h : Leaves R act)
    (hnext : ∀ x, Leaves R (next x)) : Leaves R (act >>= next) := by
  intro w
  have hafter := h w
  rw [perform_bind]
  generalize w.perform act = done at hafter
  obtain ⟨result, after⟩ := done
  cases result with
  | ok x => exact hR.trans hafter (hnext x after)
  | error problem => exact hafter

/-- An act whose failures are counted leaves alone what the act does: failures have counters of
their own. -/
theorem Leaves.counted {act : Act α} (h : Leaves R act) : Leaves R (counted act) := by
  intro w
  have hafter := h w
  rw [perform_counted_cases]
  generalize w.perform act = done at hafter
  obtain ⟨result, after⟩ := done
  cases result with
  | ok x => exact hafter
  | error problem => exact hR.trans hafter (leaves_count hR Meter.countError (fun _ => rfl) after)

/-- Asking the store moves the line on, with calls, faults and time, and touches nothing else. -/
theorem leaves_ask (r : Request) (job : Client → Job α) : Leaves R (ask r job) := by
  intro w
  unfold ask
  rw [perform_bind_ok perform_get]
  generalize (job ⟨w.store, w.policy, r⟩).run w.line = done
  obtain ⟨result, line⟩ := done
  have hasked : R w { w with
      line
      meter := w.meter.map fun m =>
        m.countProbes (line.ended - w.line.ended) (line.failed - w.line.failed) } :=
    hR.trans (hR.line w line) (hR.count { w with line } _ fun _ => rfl)
  cases result with
  | ok x => exact hasked
  | error problem => exact hasked

/-! ### What a request may see -/

/-- Looking at the schema in force leaves everything as it is. -/
theorem leaves_schema : Leaves R schema := by
  refine leaves_get fun w => ?_
  cases w.catalog.current with
  | none => exact leaves_throw hR _
  | some s => exact leaves_pure hR s

/-- Looking up an outcome may drop what is too old from the memory, and counts a hit or a miss. -/
theorem leaves_lookUp (k : OutcomeKey) : Leaves R (lookUp k) := by
  refine leaves_get fun w => ?_
  cases w.memo with
  | none => exact leaves_pure hR none
  | some m =>
      simp only
      generalize m.get k = got
      obtain ⟨found, kept⟩ := got
      have hkept : Leaves R (modify fun w : Warden => { w with memo := some kept }) :=
        fun w => hR.memo w _
      refine hkept.bind hR fun _ => ?_
      cases found with
      | none =>
          exact (leaves_count hR Meter.countMiss fun _ => rfl).bind hR fun _ => leaves_pure hR none
      | some v =>
          exact (leaves_count hR Meter.countHit fun _ => rfl).bind hR fun _ =>
            leaves_pure hR (some v)

/-- An outcome is looked up, or else worked out and remembered.  Each of these steps is allowed, so
the whole is. -/
theorem leaves_visibility (s : Schema) (r : Request) (typeName : String) (op : Operation) :
    Leaves R (visibility s r typeName op) := by
  unfold visibility
  split
  · exact leaves_pure hR _
  · cases s.governingRule? typeName op with
    | none => exact leaves_pure hR _
    | some rule =>
        refine (leaves_lookUp hR _).bind hR fun found => ?_
        cases found with
        | some v => exact leaves_pure hR v
        | none =>
            refine leaves_get fun w => ?_
            cases rule.visibility w.store.complement r.claims with
            | error problem => exact leaves_throw hR problem
            | ok v => exact (leaves_remember hR _ v).bind hR fun _ => leaves_pure hR v

/-- Working out several outcomes looks each of them up and remembers it, and does nothing else. -/
theorem leaves_visibilities (s : Schema) (r : Request) (op : Operation) (types : List String) :
    Leaves R (visibilities s r op types) := by
  induction types with
  | nil => exact leaves_pure hR []
  | cons t types ih =>
      exact (leaves_visibility hR s r t op).bind hR fun _ => ih.bind hR fun _ => leaves_pure hR _

/-- For the kind of a type only the schema is looked at. -/
theorem leaves_rootKind (s : Schema) (typeName : String) : Leaves R (rootKind s typeName) := by
  unfold rootKind
  cases s.find? typeName with
  | none => exact leaves_throw hR _
  | some info => exact leaves_pure hR _

/-! ### Requests -/

/-- Authorizing a query works out outcomes, restricts the query by them and counts it. -/
theorem leaves_authorizeQuery (r : Request) (q : Query) : Leaves R (authorizeQuery r q) := by
  have hrestrict : Leaves R (restrict r q) :=
    (leaves_schema hR).bind hR fun _ => (leaves_rootKind hR _ _).bind hR fun _ =>
      (leaves_visibilities hR _ _ _ _).bind hR fun _ => leaves_pure hR _
  exact (hrestrict.counted hR).bind hR fun _ =>
    (leaves_count hR Meter.countRead fun _ => rfl).bind hR fun _ => leaves_pure hR _

/-- Authorizing a password check does the same with the password rules. -/
theorem leaves_authorizePasswordCheck (r : Request) (q : Query) :
    Leaves R (authorizePasswordCheck r q) := by
  have hrestrict : Leaves R (restrictPasswordCheck r q) :=
    (leaves_schema hR).bind hR fun _ => (leaves_rootKind hR _ _).bind hR fun _ =>
      (leaves_visibilities hR _ _ _ _).bind hR fun _ =>
        (leaves_visibilities hR _ _ _ _).bind hR fun _ => leaves_pure hR _
  exact hrestrict.counted hR

/-- A query looks outcomes up, is counted as a read, and asks the store what is left of it. -/
theorem leaves_query (r : Request) (q : Query) : Leaves R (query r q) := by
  have hanswer : Leaves R (answer r q) := by
    refine (leaves_schema hR).bind hR fun s => (leaves_rootKind hR _ _).bind hR fun kind =>
      (leaves_visibilities hR _ _ _ _).bind hR fun vs =>
        (leaves_count hR Meter.countRead fun _ => rfl).bind hR fun _ => ?_
    split
    · exact leaves_ask hR _ _
    · exact leaves_ask hR _ _
  exact hanswer.counted hR

/-- A write, until it is counted. -/
theorem leaves_authorize (r : Request) (op : Operation) (typeName : String) (ids : List String) :
    Leaves R (counted do
      let s ← schema
      ask r fun c => c.authorize s op typeName ids) :=
  ((leaves_schema hR).bind hR fun _ => leaves_ask hR _ _).counted hR

/-- A rule is evaluated with the memory or with the store.  Nothing is written in either mode, so
no nodes are left out. -/
theorem leaves_evaluate (r : Request) (typeName : String) (op : Operation) (mode : Mode) :
    Leaves R (evaluate r typeName op mode) := by
  refine (leaves_schema hR).bind hR fun s => ?_
  cases mode with
  | filter => exact (leaves_visibility hR _ _ _ _).bind hR fun _ => leaves_pure hR _
  | gate gated candidates =>
      simp only
      split
      · exact leaves_pure hR _
      · exact leaves_ask hR _ _

/-- Reading claims from a token takes the schema and leaves no trace. -/
theorem leaves_claimsOfToken (payload : Json) : Leaves R (claimsOfToken payload) := by
  refine (leaves_schema hR).bind hR fun s => ?_
  cases Claims.ofPayload (s.descriptor.map Descriptor.claimsKey) payload with
  | error flaw => exact leaves_throw hR _
  | ok claims => exact leaves_pure hR claims

end Frames

end Warden

/-- Whether a demand neither loads a schema nor asks for a write. -/
def Demand.isPlain : Demand → Bool
  | load _ | loadText _ | authorizeWrite _ _ _ _ | authorizeAdd _ _ => false
  | forget | claimsOfToken _ | authorizeQuery _ _ | authorizePasswordCheck _ _ | query _ _
  | evaluate _ _ _ _ => true

/-- **Demands that neither load nor write** only let time pass, remember and count. -/
theorem Warden.leaves_plain {R : Warden → Warden → Prop} (hR : Frame R) {d : Demand}
    (h : d.isPlain = true) : Leaves R d.act := by
  cases d with
  | load _ | loadText _ | authorizeWrite _ _ _ _ | authorizeAdd _ _ => simp [Demand.isPlain] at h
  | forget => exact (leaves_forget hR).bind hR fun _ => leaves_pure hR _
  | claimsOfToken payload =>
      exact (leaves_claimsOfToken hR payload).bind hR fun _ => leaves_pure hR _
  | authorizeQuery r q => exact (leaves_authorizeQuery hR r q).bind hR fun _ => leaves_pure hR _
  | authorizePasswordCheck r q =>
      exact (leaves_authorizePasswordCheck hR r q).bind hR fun _ => leaves_pure hR _
  | query r q => exact (leaves_query hR r q).bind hR fun _ => leaves_pure hR _
  | evaluate r typeName op mode =>
      exact (leaves_evaluate hR r typeName op mode).bind hR fun _ => leaves_pure hR _

end GraphWarden
