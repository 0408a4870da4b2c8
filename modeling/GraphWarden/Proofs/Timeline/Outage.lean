import GraphWarden.Proofs.Timeline.Interference
import GraphWarden.Timeline.Client

/-!
# Stores that fail

A call to a store that fails or takes too long ends in one of few ways: the store's
own answer gets through, or the job fails with an **outage**.  A store never gets a
word in that is not its answer (`gives_call`), and a request whose time has come gets
no answer at all.

`Job.Withstands t job calm` compares a job with the same job where nothing goes wrong.
Either the calm one answers, and then the job gives the same answer or reports an
outage; or the calm one fails, and then the job fails too.  Everything that jobs are
put together with keeps this, because no job looks into the failure of another.
-/

namespace GraphWarden

/-- Whether a request failed because of the store or of the clock, and not because of
what it asks for. -/
def AccessProblem.isOutage : AccessProblem → Bool
  | .cancelled => true
  | problem => problem.isInfrastructure

namespace Request

/-- Whether a call that is made now gets a budget. -/
def isLive (r : Request) (now : Nat) : Bool :=
  !r.isCancelled now && !r.isExpired now

/-- A request that has come to its end stays there. -/
theorem isLive_mono {r : Request} {t now : Nat} (h : t ≤ now) (hlive : r.isLive now = true) :
    r.isLive t = true := by
  have hpast : ∀ time : Option Nat, time.any (fun s => decide (s ≤ now)) = false →
      time.any (fun s => decide (s ≤ t)) = false := by
    intro time htime
    cases time with
    | none => rfl
    | some s =>
        simp only [Option.any_some, decide_eq_false_iff_not] at htime ⊢
        omega
  simp only [isLive, isCancelled, isExpired, Bool.and_eq_true, Bool.not_eq_true'] at hlive ⊢
  exact ⟨hpast _ hlive.1, hpast _ hlive.2⟩

/-- A call gets a budget as long as the request is live, and an outage afterwards. -/
theorem budget_cases (r : Request) (now limit : Nat) :
    (r.isLive now = true ∧ ∃ budget, r.budget now limit = .ok budget) ∨
      (r.isLive now = false ∧ ∃ problem, problem.isOutage = true ∧
        r.budget now limit = .error problem) := by
  unfold isLive budget isExpired
  by_cases hcancelled : r.isCancelled now = true
  · exact Or.inr ⟨by simp [hcancelled], .cancelled, rfl, by simp [hcancelled]⟩
  · cases hdeadline : r.deadline with
    | none => exact Or.inl ⟨by simp [hcancelled], limit, by simp [hcancelled]⟩
    | some due =>
        by_cases hdue : due ≤ now
        · exact Or.inr ⟨by simp [hdue], .probeTimeout 0, rfl, by simp [hcancelled, hdue]⟩
        · exact Or.inl ⟨by simp [hcancelled, hdue], min (due - now) limit,
            by simp [hcancelled, hdue]⟩

end Request

namespace Client

variable {α : Type} {t : Nat} {c : Client} {answer : Answer α}

/-- How a call may end: with the store's own answer, when the request was live, or with
an outage. -/
def Truthful (r : Request) (t : Nat) (answer : Answer α) : Except AccessProblem α → Prop
  | .ok x => answer = .ok x ∧ r.isLive t = true
  | .error problem => problem.isOutage = true

/-- One call answers nothing but what the store would. -/
theorem callOnce_always {call : Call} {budget : Nat} {l : Line} (hl : t ≤ l.now) :
    (c.callOnce call answer budget l).Always t fun e => ∀ x, e = .answered (.ok x) →
      answer = .ok x := by
  have hnow : (l.record call).2.now = l.now := rfl
  unfold callOnce
  generalize l.record call = recorded at hnow
  obtain ⟨fault, l'⟩ := recorded
  have hl' : t ≤ l'.now := hnow ▸ hl
  cases fault with
  | works => exact .finished hl' fun x hx => by simpa using hx
  | fails problem => exact .finished hl' fun x hx => by simp at hx
  | delays ms =>
      simp only
      split
      · exact .after hl' fun l'' hl'' => .finished hl'' fun x hx => by simp at hx
      · refine .after hl' fun l'' hl'' => .finished hl'' fun x hx => ?_
        by_cases hms : ms ≤ budget
        · simpa [hms] using hx
        · simp [hms] at hx

/-- A pause goes by, or the request is cancelled in it, which is an outage. -/
theorem gives_pause (ms : Nat) : (c.pause ms).Gives t fun
    | .ok _ => True
    | .error problem => problem.isOutage = true := by
  intro l hl
  unfold pause
  simp only
  split
  · exact .after hl fun l' hl' => .finished hl' rfl
  · exact .after hl fun l' hl' => .finished hl' trivial

/-- **A call ends with the store's own answer or with an outage**, however many attempts
are left. -/
theorem gives_callFrom {call : Call} (left : Nat) : ∀ number,
    (c.callFrom call (fun _ => answer) left number).Gives t (Truthful c.request t answer) := by
  induction left with
  | zero =>
      intro number l hl
      unfold callFrom
      rcases c.request.budget_cases l.now c.policy.timeout with
        ⟨hlive, budget, hbudget⟩ | ⟨_, problem, hproblem, hbudget⟩
      · rw [hbudget]
        refine (callOnce_always hl).bind fun e he l' hl' => ?_
        match e, he with
        | .cancelled, _ => exact .finished hl' rfl
        | .answered (.ok x), he =>
            exact .finished hl' ⟨he x rfl, Request.isLive_mono hl hlive⟩
        | .answered (.error _), _ => exact .finished hl' rfl
        | .tookTooLong, _ => exact .finished hl' rfl
      · rw [hbudget]
        exact .finished hl hproblem
  | succ left ih =>
      have hagain : ∀ number l, t ≤ l.now →
          (Job.bind (c.pause (c.policy.backoff * number))
            (fun _ => c.callFrom call (fun _ => answer) left (number + 1)) l).Always t
            (Truthful c.request t answer) := by
        intro number
        exact (gives_pause _).bind (fun _ _ => ih (number + 1)) fun _ h => h
      intro number l hl
      unfold callFrom
      rcases c.request.budget_cases l.now c.policy.timeout with
        ⟨hlive, budget, hbudget⟩ | ⟨_, problem, hproblem, hbudget⟩
      · rw [hbudget]
        refine (callOnce_always hl).bind fun e he l' hl' => ?_
        match e, he with
        | .cancelled, _ => exact .finished hl' rfl
        | .answered (.ok x), he =>
            exact .finished hl' ⟨he x rfl, Request.isLive_mono hl hlive⟩
        | .answered (.error _), _ => exact hagain number _ hl'
        | .tookTooLong, _ =>
            simp only
            split
            · exact .finished hl' rfl
            · exact hagain number _ hl'
      · rw [hbudget]
        exact .finished hl hproblem

/-- The same of a call from its first attempt on: what it is told by the store is the store's
answer, and all other ways to end are outages. -/
theorem gives_call {call : Call} :
    (c.call call fun _ => answer).Gives t (Truthful c.request t answer) :=
  gives_callFrom _ 1

/-- What a call yields is the store's own answer. -/
theorem yields_call {call : Call} :
    (c.call call fun _ => answer).Yields fun x => answer = .ok x := by
  refine gives_call.mono fun x hx => ?_
  cases x with
  | ok x => exact hx.1
  | error _ => trivial

/-- On a calm line an answer is there at once. -/
theorem prompt_call {call : Call} {x : α} (hanswer : answer = .ok x)
    (hlive : c.request.isLive t = true) : (c.call call fun _ => answer).Prompt t (· = x) := by
  intro l hl
  refine ⟨(l.record call).2.count false, x, ⟨hl.now, ?_⟩, rfl, ?_⟩
  · simp [Line.count, Line.record, hl.faults]
  · rcases c.request.budget_cases l.now c.policy.timeout with
      ⟨_, budget, hbudget⟩ | ⟨hdead, _⟩
    · have hrecord : l.record call = (.works, (l.record call).2) := by
        simp [Line.record, hl.faults]
      have honce : c.callOnce call answer budget l =
          .finished (l.record call).2 (.answered (.ok x)) := by
        unfold callOnce
        rw [hrecord, hanswer]
      unfold Client.call callFrom
      cases c.policy.retries <;> simp [hbudget, honce, Step.bind]
    · rw [hl.now, hlive] at hdead
      exact absurd hdead (by simp)

end Client

namespace Job

variable {α β : Type} {t : Nat}

/-- The job gives this answer, or reports an outage. -/
def Ends (x : α) : Except AccessProblem α → Prop
  | .ok y => y = x
  | .error problem => problem.isOutage = true

/-- The job does not answer. -/
def Fails : Except AccessProblem α → Prop
  | .ok _ => False
  | .error _ => True

/-- What becomes of a job where things go wrong, compared with the same job where
nothing does. -/
inductive Withstands (t : Nat) (job calm : Job α) : Prop where
  | answered (x : α) (prompt : calm.Prompt t (· = x)) (undisturbed : calm.Gives t (Ends x))
      (disturbed : job.Gives t (Ends x))
  | failed (undisturbed : calm.Gives t Fails) (disturbed : job.Gives t Fails)

/-- Failures may be told differently, as long as outages stay outages. -/
theorem Gives.mapError {f : AccessProblem → AccessProblem}
    (hf : ∀ problem, problem.isOutage = true → (f problem).isOutage = true) {job : Job α} {x : α}
    (h : job.Gives t (Ends x)) : Gives t (Ends x) fun l => (job l).map (Except.mapError f) := by
  intro l hl
  refine (h l hl).map fun y hy => ?_
  cases y with
  | ok y => exact hy
  | error problem => exact hf problem hy

/-- A prompt job stays prompt when its failures are worded anew, because it has none. -/
theorem Prompt.mapError {f : AccessProblem → AccessProblem} {Q : α → Prop} {job : Job α}
    (h : job.Prompt t Q) : Prompt t Q fun l => (job l).map (Except.mapError f) := by
  intro l hl
  obtain ⟨l', x, hl', hx, hjob⟩ := h l hl
  exact ⟨l', x, hl', hx, congrArg (Step.map (Except.mapError f)) hjob⟩

theorem withstands_pure (x : α) : Withstands t (Job.pure x) (Job.pure x) :=
  .answered x (prompt_pure rfl) (gives_pure rfl) (gives_pure rfl)

theorem withstands_fail (problem : AccessProblem) :
    Withstands t (Job.fail problem : Job α) (Job.fail problem) :=
  .failed (gives_fail trivial) (gives_fail trivial)

/-- An answer that is there already withstands, whichever it is. -/
theorem withstands_ofExcept (x : Except AccessProblem α) :
    Withstands t (Job.ofExcept x) (Job.ofExcept x) := by
  cases x with
  | ok x => exact withstands_pure x
  | error problem => exact withstands_fail problem

/-- What goes on after a job that fails fails with it. -/
theorem Gives.bind_fails {job : Job α} {next : α → Job β} (h : job.Gives t Fails) :
    (job.bind next).Gives t Fails :=
  h.bind (fun _ hx => absurd hx id) fun _ _ => trivial

/-- A job that ends with one answer or with an outage goes on with that answer, or passes the
outage on. -/
theorem Gives.bind_ends {Q : Except AccessProblem β → Prop} {job : Job α} {next : α → Job β} {x : α}
    (h : job.Gives t (Ends x)) (hnext : (next x).Gives t Q)
    (hQ : ∀ problem, problem.isOutage = true → Q (.error problem)) : (job.bind next).Gives t Q := by
  refine h.bind (fun y hy => ?_) hQ
  have hyx : y = x := hy
  exact hyx ▸ hnext

/-- **Jobs that withstand one after the other withstand together.**  Where the first calm job
answers, both go on alike; where it fails, both have failed. -/
theorem Withstands.bind {job calm : Job α} {next calmNext : α → Job β}
    (h : Withstands t job calm) (hnext : ∀ x, Withstands t (next x) (calmNext x)) :
    Withstands t (job.bind next) (calm.bind calmNext) := by
  cases h with
  | failed undisturbed disturbed =>
      exact .failed undisturbed.bind_fails disturbed.bind_fails
  | answered x prompt undisturbed disturbed =>
      cases hnext x with
      | failed hundisturbed hdisturbed =>
          exact .failed (undisturbed.bind_ends hundisturbed fun _ _ => trivial)
            (disturbed.bind_ends hdisturbed fun _ _ => trivial)
      | answered y hprompt hundisturbed hdisturbed =>
          refine .answered y (prompt.bind fun z hz => ?_)
            (undisturbed.bind_ends hundisturbed fun _ h => h)
            (disturbed.bind_ends hdisturbed fun _ h => h)
          have hzx : z = x := hz
          exact hzx ▸ hprompt

/-- Of several jobs either all have an answer, or one fails. -/
theorem answers_or_fails [Inhabited α] {ι : Type} {f calm : ι → Job α} {xs : List ι}
    (h : ∀ x ∈ xs, Withstands t (f x) (calm x)) :
    (∃ answer : ι → α, ∀ x ∈ xs, (calm x).Prompt t (· = answer x) ∧
        (calm x).Gives t (Ends (answer x)) ∧ (f x).Gives t (Ends (answer x))) ∨
      ∃ x ∈ xs, (calm x).Gives t Fails ∧ (f x).Gives t Fails := by
  by_cases hfails : ∃ x ∈ xs, (calm x).Gives t Fails ∧ (f x).Gives t Fails
  · exact Or.inr hfails
  · have hall : ∀ x, ∃ y, x ∈ xs → (calm x).Prompt t (· = y) ∧ (calm x).Gives t (Ends y) ∧
        (f x).Gives t (Ends y) := by
      intro x
      by_cases hx : x ∈ xs
      · cases h x hx with
        | answered y prompt undisturbed disturbed =>
            exact ⟨y, fun _ => ⟨prompt, undisturbed, disturbed⟩⟩
        | failed undisturbed disturbed => exact absurd ⟨x, hx, undisturbed, disturbed⟩ hfails
      · exact ⟨default, fun h => absurd h hx⟩
    exact Or.inl (Classical.skolem.1 hall)

/-- Several jobs side by side, each with one answer or an outage, are put together into one answer
or an outage, if the order in which they come plays no part. -/
theorem Gives.bind_gather {ι : Type} {f : ι → Job α} {xs : List ι} {answer : ι → α}
    (h : ∀ x ∈ xs, (f x).Gives t (Ends (answer x))) {combine : List α → β} {z : β}
    (hcombine : ∀ ys, ys.Perm (xs.map answer) → combine ys = z) :
    ((gather (xs.map f)).bind fun ys => Job.pure (combine ys)).Gives t (Ends z) := by
  refine (gives_gather h).bind (fun ys hys => gives_pure (hcombine ys (AnswersTo.perm_map hys))) ?_
  rintro problem ⟨x, _, hproblem⟩
  exact hproblem

/-- One job that fails makes all of them fail together, because none goes back in time. -/
theorem Gives.gather_fails {ι : Type} {f : ι → Job α} {xs : List ι}
    (h : ∀ x ∈ xs, ∃ P, (f x).Gives t P) {x : ι} (hx : x ∈ xs) (hfails : (f x).Gives t Fails) :
    (gather (xs.map f)).Gives t Fails := by
  have hjobs : ∀ y ∈ xs, (f y).Gives t fun r => y = x → Fails r := by
    intro y hy
    by_cases hyx : y = x
    · exact (hyx ▸ hfails).mono fun r hr _ => hr
    · obtain ⟨P, hP⟩ := h y hy
      exact hP.mono fun r _ h => absurd h hyx
  refine (gives_gather hjobs).mono fun ys hys => ?_
  cases ys with
  | ok ys =>
      obtain ⟨y, _, hy⟩ := AnswersTo.exists_answer hys hx
      exact absurd (hy rfl) id
  | error problem => trivial

/-- Of two jobs that are compared something is certain in any case. -/
theorem Withstands.exists_gives {job calm : Job α} (h : Withstands t job calm) :
    (∃ P, calm.Gives t P) ∧ ∃ P, job.Gives t P := by
  cases h with
  | answered x _ undisturbed disturbed => exact ⟨⟨_, undisturbed⟩, ⟨_, disturbed⟩⟩
  | failed undisturbed disturbed => exact ⟨⟨_, undisturbed⟩, ⟨_, disturbed⟩⟩

/-- Jobs side by side, when their answers are put together in a way that does not depend
on the order in which they arrive. -/
theorem withstands_gather [Inhabited α] {ι : Type} {f calm : ι → Job α} {xs : List ι}
    {combine : List α → β} (h : ∀ x ∈ xs, Withstands t (f x) (calm x))
    (hcombine : ∀ answer : ι → α, (∀ x ∈ xs, (calm x).Prompt t (· = answer x)) →
      ∀ ys, ys.Perm (xs.map answer) → combine ys = combine (xs.map answer)) :
    Withstands t ((gather (xs.map f)).bind fun ys => Job.pure (combine ys))
      ((gather (xs.map calm)).bind fun ys => Job.pure (combine ys)) := by
  rcases answers_or_fails h with ⟨answer, hanswer⟩ | ⟨x, hx, hundisturbed, hdisturbed⟩
  · have hcombined := hcombine answer fun x hx => (hanswer x hx).1
    refine .answered (combine (xs.map answer)) ?_
      (Gives.bind_gather (fun x hx => (hanswer x hx).2.1) hcombined)
      (Gives.bind_gather (fun x hx => (hanswer x hx).2.2) hcombined)
    exact (prompt_gather fun x hx => (hanswer x hx).1).bind fun ys hys =>
      prompt_pure (hcombined ys (AnswersTo.perm_map hys))
  · exact .failed
      (Gives.gather_fails (fun y hy => (h y hy).exists_gives.1) hx hundisturbed).bind_fails
      (Gives.gather_fails (fun y hy => (h y hy).exists_gives.2) hx hdisturbed).bind_fails

end Job

namespace Client

variable {t : Nat} {c : Client} {q : Query} {records : List Record}

/-- An outage is still one when it is reported for an execution. -/
theorem isOutage_asExecution (problem : AccessProblem) (h : problem.isOutage = true) :
    (asExecution problem).isOutage = true := by
  cases problem with
  | probeFailed _ _ => rfl
  | _ => exact h

/-- A query ends with the records that the store has for it, or with an outage. -/
theorem gives_execute (h : ∀ answer, c.store.execute q = .ok answer → answer = records) :
    (c.execute q).Gives t (Job.Ends records) := by
  refine Job.Gives.mapError isOutage_asExecution (gives_call.mono fun x hx => ?_)
  cases x with
  | ok answer => exact h answer hx.1
  | error _ => exact hx

/-- On a calm line the records are there at once. -/
theorem prompt_execute (h : c.store.execute q = .ok records) (hlive : c.request.isLive t = true) :
    (c.execute q).Prompt t (· = records) :=
  Job.Prompt.mapError (prompt_call h hlive)

end Client

end GraphWarden
