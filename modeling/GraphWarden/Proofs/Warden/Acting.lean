import GraphWarden.Warden

/-!
# Letting a warden act

`Warden.perform` is one act of a warden: what it answers, and what the warden is
afterwards.  An act is taken apart by one equation for each way in which acts are put
together; of a request that is counted, and of a job for the store, the answer is what
it would be without the counting.

An act `Agrees` on two wardens that are related when it answers both alike and leaves them
related; acts that are put together of such acts agree too.
-/

namespace GraphWarden.Warden

variable {α β : Type} {w : Warden}

/-- What a warden answers, and what it is afterwards. -/
def perform (w : Warden) (act : Act α) : Except AccessProblem α × Warden :=
  StateT.run (ExceptT.run act) w

@[simp] theorem perform_pure (x : α) : w.perform (pure x) = (.ok x, w) := rfl

@[simp] theorem perform_throw (problem : AccessProblem) :
    w.perform (throw problem : Act α) = (.error problem, w) := rfl

@[simp] theorem perform_get : w.perform get = (.ok w, w) := rfl

@[simp] theorem perform_modify (change : Warden → Warden) :
    w.perform (modify change) = (.ok (), change w) := rfl

/-- The second act is the act of what the warden is after the first one. -/
theorem perform_bind (act : Act α) (next : α → Act β) :
    w.perform (act >>= next) =
      match w.perform act with
      | (.ok x, w') => w'.perform (next x)
      | (.error problem, w') => (.error problem, w') := by
  unfold perform ExceptT.run StateT.run
  simp only [bind, ExceptT.bind, ExceptT.mk, StateT.bind, ExceptT.bindCont]
  cases act w with
  | mk result w' => cases result <;> rfl

/-- An act goes on with what the one before has given, on what it has made of the warden. -/
theorem perform_bind_ok {act : Act α} {next : α → Act β} {x : α} {w' : Warden}
    (h : w.perform act = (.ok x, w')) : w.perform (act >>= next) = w'.perform (next x) := by
  rw [perform_bind, h]

@[simp] theorem perform_count (change : Meter → Meter) :
    w.perform (count change) = (.ok (), { w with meter := w.meter.map change }) := rfl

/-- A failure of a counted act is counted and passed on; a success is passed on as it is. -/
theorem perform_counted_cases (act : Act α) :
    w.perform (counted act) =
      match w.perform act with
      | (.ok x, w') => (.ok x, w')
      | (.error problem, w') => (.error problem, (w'.perform (count Meter.countError)).2) := by
  unfold counted perform ExceptT.run StateT.run
  simp only [tryCatch, tryCatchThe, MonadExceptOf.tryCatch, ExceptT.tryCatch, ExceptT.mk, bind,
    StateT.bind]
  cases act w with
  | mk result w' => cases result <;> rfl

/-- Counting a failure does not change it. -/
theorem perform_counted (act : Act α) : (w.perform (counted act)).1 = (w.perform act).1 := by
  rw [perform_counted_cases]
  cases w.perform act with
  | mk result w' => cases result <;> rfl

/-- Counting an answer does not change it. -/
theorem perform_then_count (act : Act α) (change : α → Meter → Meter) :
    (w.perform (do
      let x ← act
      count (change x)
      pure x)).1 = (w.perform act).1 := by
  rw [perform_bind]
  cases w.perform act with
  | mk result w' => cases result <;> rfl

/-- The schema in force is given as it stands in the catalog. -/
theorem perform_schema {s : Schema} (h : w.catalog.current = some s) :
    w.perform schema = (.ok s, w) := by
  unfold schema
  rw [perform_bind_ok perform_get, h]
  rfl

/-- Where no schema is in force, none can be worked with. -/
theorem perform_schema_none (h : w.catalog.current = none) :
    w.perform schema = (.error .noSchema, w) := by
  unfold schema
  rw [perform_bind_ok perform_get, h]
  rfl

/-- The answer to a job is what the job ends with. -/
theorem perform_ask (r : Request) (job : Client → Job α) :
    (w.perform (ask r job)).1 = ((job ⟨w.store, w.policy, r⟩).run w.line).1 := by
  unfold ask
  rw [perform_bind_ok perform_get]
  cases (job ⟨w.store, w.policy, r⟩).run w.line with
  | mk result line => cases result <;> rfl

/-- What a write is answered is worked out by a client of the store. -/
theorem perform_authorizeWrite {s : Schema} (hcurrent : w.catalog.current = some s) (r : Request)
    (op : Operation) (typeName : String) (ids : List String) :
    (w.perform (authorizeWrite r op typeName ids)).1 =
      (((⟨w.store, w.policy, r⟩ : Client).authorize s op typeName ids).run w.line).1 := by
  unfold authorizeWrite
  rw [perform_then_count, perform_counted, perform_bind_ok (perform_schema hcurrent)]
  exact perform_ask r _

/-- A node may be added when the write of a new one leaves something allowed. -/
theorem perform_authorizeAdd (w : Warden) (r : Request) (typeName : String) :
    (w.perform (authorizeAdd r typeName)).1 =
      (w.perform (authorizeWrite r .add typeName [newNode])).1.map fun allowed =>
        !allowed.isEmpty := by
  unfold authorizeAdd
  rw [perform_bind]
  obtain ⟨result, after⟩ := w.perform (authorizeWrite r .add typeName [newNode])
  cases result with
  | error problem => rfl
  | ok allowed => rfl

/-! ### Two wardens -/

/-- The act gives both wardens the same answer, and leaves them related as they were. -/
def Agrees (R : Warden → Warden → Prop) (act : Act α) : Prop :=
  ∀ w twin, R w twin → (w.perform act).1 = (twin.perform act).1 ∧
    R (w.perform act).2 (twin.perform act).2

section Agreement

variable {R : Warden → Warden → Prop} {twin : Warden} {act : Act α}

/-- Acts that agree end alike, with wardens that are related again. -/
theorem Agrees.outcome (h : Agrees R act) (hwardens : R w twin) :
    ∃ answer after after', w.perform act = (answer, after) ∧
      twin.perform act = (answer, after') ∧ R after after' := by
  obtain ⟨hanswer, hafter⟩ := h w twin hwardens
  exact ⟨(w.perform act).1, (w.perform act).2, (twin.perform act).2, rfl,
    Prod.ext hanswer.symm rfl, hafter⟩

theorem agrees_pure (x : α) : Agrees R (pure x) :=
  fun _ _ h => ⟨rfl, h⟩

theorem agrees_throw (problem : AccessProblem) : Agrees R (throw problem : Act α) :=
  fun _ _ h => ⟨rfl, h⟩

/-- Acts that agree one by one agree one after the other. -/
theorem Agrees.bind {next : α → Act β} (h : Agrees R act) (hnext : ∀ x, Agrees R (next x)) :
    Agrees R (act >>= next) := by
  intro w twin hwardens
  obtain ⟨answer, after, after', hw, htwin, hafter⟩ := h.outcome hwardens
  rw [perform_bind, perform_bind, hw, htwin]
  cases answer with
  | ok x => exact hnext x after after' hafter
  | error problem => exact ⟨rfl, hafter⟩

/-- Counting failures changes no answer; it is enough that counting keeps the wardens
related. -/
theorem Agrees.counted (hcount : ∀ change, Agrees R (count change)) (h : Agrees R act) :
    Agrees R (counted act) := by
  intro w twin hwardens
  obtain ⟨answer, after, after', hw, htwin, hafter⟩ := h.outcome hwardens
  rw [perform_counted_cases, perform_counted_cases, hw, htwin]
  cases answer with
  | ok x => exact ⟨rfl, hafter⟩
  | error problem => exact ⟨rfl, (hcount Meter.countError after after' hafter).2⟩

end Agreement

end GraphWarden.Warden
