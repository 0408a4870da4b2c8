import GraphWarden.Timeline.Client

/-!
# The course of a call

A call to a store is a sequence of attempts with pauses in between.  Running it only shows what it
ends with; here it is taken apart.  An `Attempt` is what one of its attempts was: when it started
and was over, how long it might take, what the store did and how it ended.

`Client.Course` lists the attempts of a call from its `number`-th one on.  Each step of it is a run
of what the call itself is made of, one attempt (`Client.Makes`) or one pause, and one rule,
`Client.settled?`, says whether an attempt was the last one.  Every run of a call has such a course
(`Client.exists_course`).

What an attempt and a pause can do to the clock is said once, in `Makes.goes` and `paused_of_run`;
everything else follows from the course by induction:

* `Course.length_le`, `Course.numbered` — at most so many attempts, in order, and the store does
  in each what it was going to do;
* `Course.genuine` — each attempt has a budget and goes like one;
* `Course.ends` — the last attempt settles the result, or the request comes to its end in the pause
  after it, or with it.
-/

namespace GraphWarden

/-! ### Running -/

namespace Step

variable {α β : Type}

/-- A computation that goes on with another one is run in two parts, the second on the line that
the first has left. -/
theorem run_bind (step : Step α) (next : α → Line → Step β) :
    (step.bind next).run = (next step.run.1 step.run.2).run := by
  induction step with
  | finished l x => rfl
  | waiting l wake resume ih => exact ih _

/-- Run alone, a computation goes on when it is time. -/
theorem run_after (l : Line) (wake : Nat) (resume : Line → Step α) :
    (Step.after l wake resume).run = (resume { l with now := max l.now wake }).run := by
  unfold Step.after
  split
  · next h => rw [Nat.max_eq_left h]
  · rfl

end Step

/-- One job after the other, run: the second one begins when the first one is done. -/
theorem Job.run_bind {α β : Type} (job : Job α) (next : α → Job β) (l : Line) :
    (job.bind next).run l =
      match job.run l with
      | (.ok x, l') => (next x).run l'
      | (.error problem, l') => (.error problem, l') := by
  unfold Job.bind Job.run
  rw [Step.run_bind]
  cases (job l).run with
  | mk x l' => cases x <;> rfl

namespace Request

variable {r : Request} {now limit budget : Nat}

/-- A call that gets a budget is in time, and so it is as long as it keeps to the budget. -/
theorem of_budget_eq_ok (h : r.budget now limit = .ok budget) :
    r.isCancelled now = false ∧ r.isExpired now = false ∧ budget ≤ limit ∧
      ∀ due, r.deadline = some due → now + budget ≤ due := by
  unfold Request.budget at h
  split at h
  · simp at h
  · next hcancelled =>
      unfold isExpired
      cases hdeadline : r.deadline with
      | none =>
          simp only [hdeadline, Except.ok.injEq] at h
          subst h
          simpa using hcancelled
      | some due =>
          simp only [hdeadline] at h
          split at h
          · simp at h
          · cases h
            refine ⟨by simpa using hcancelled, by simpa using ‹¬ due ≤ now›, by omega, ?_⟩
            intro due' hdue
            cases hdue
            omega

/-- A call that gets no budget is told that the request was cancelled, or that its deadline has
come. -/
theorem of_budget_eq_error {problem : AccessProblem} (h : r.budget now limit = .error problem) :
    (problem = .cancelled ∧ r.isCancelled now = true) ∨
      (problem = .probeTimeout 0 ∧ r.isExpired now = true) := by
  unfold Request.budget at h
  split at h
  · next hcancelled =>
      cases h
      exact Or.inl ⟨rfl, hcancelled⟩
  · unfold isExpired
    cases hdeadline : r.deadline with
    | none => simp [hdeadline] at h
    | some due =>
        simp only [hdeadline] at h
        split at h
        · cases h
          exact Or.inr ⟨rfl, by simpa using ‹due ≤ now›⟩
        · simp at h

/-- A request that is not cancelled by some time is cancelled later, if at all. -/
theorem isCancelled_eq_false_iff :
    r.isCancelled now = false ↔ ∀ t, r.cancelAt = some t → now < t := by
  unfold isCancelled
  cases r.cancelAt <;> simp

end Request

/-! ### Attempts -/

namespace Fault

/-- What the store replies in the end, where it would have answered `answer`. -/
def reply {α : Type} (answer : Answer α) : Fault → Answer α
  | works | delays _ => answer
  | fails problem => .error problem

/-- How long the store takes to reply. -/
def duration : Fault → Nat
  | works | fails _ => 0
  | delays ms => ms

end Fault

/-- One attempt to get an answer from a store. -/
structure Attempt (α : Type) where
  /-- Which attempt it is, counted from one. -/
  number : Nat
  start : Nat
  finish : Nat
  /-- How long it may take. -/
  budget : Nat
  /-- What the store does. -/
  fault : Fault
  ending : CallEnd α

namespace Attempt

variable {α : Type}

/-- How an attempt goes, where the store would answer `answer`: it ends with what the store replies
when there is time for that, otherwise when its budget is used up, or at once when the request is
cancelled before. -/
inductive Goes (r : Request) (answer : Answer α) (a : Attempt α) : Prop where
  | answered : a.ending = .answered (a.fault.reply answer) → a.fault.duration ≤ a.budget →
      a.finish = a.start + a.fault.duration → (∀ t, r.cancelAt = some t → a.finish ≤ t) →
      Goes r answer a
  | tookTooLong : a.ending = .tookTooLong → a.budget < a.fault.duration →
      a.finish = a.start + a.budget → (∀ t, r.cancelAt = some t → a.finish ≤ t) → Goes r answer a
  | cancelled : a.ending = .cancelled → r.cancelAt = some a.finish → a.start ≤ a.finish →
      a.finish < a.start + min a.fault.duration a.budget → Goes r answer a

variable {r : Request} {answer : Answer α} {a : Attempt α}

theorem Goes.start_le (h : a.Goes r answer) : a.start ≤ a.finish := by
  cases h <;> omega

theorem Goes.finish_le (h : a.Goes r answer) : a.finish ≤ a.start + a.budget := by
  cases h <;> omega

/-- An attempt does not go on after its request was cancelled. -/
theorem Goes.finish_le_cancelAt (h : a.Goes r answer) {t : Nat} (ht : r.cancelAt = some t) :
    a.finish ≤ t := by
  cases h with
  | answered _ _ _ hcancel => exact hcancel t ht
  | tookTooLong _ _ _ hcancel => exact hcancel t ht
  | cancelled _ hcancel => exact Nat.le_of_eq (Option.some.inj (hcancel.symm.trans ht))

/-- What an attempt is answered is what the store says in the state that it is in. -/
theorem Goes.reply_eq (h : a.Goes r answer) {said : Answer α} (he : a.ending = .answered said) :
    a.fault.reply answer = said := by
  cases h with
  | answered he' => exact CallEnd.answered.inj (he'.symm.trans he)
  | tookTooLong he' => cases he'.symm.trans he
  | cancelled he' => cases he'.symm.trans he

/-- An attempt took too long only if the store would have needed more than the budget. -/
theorem Goes.budget_lt (h : a.Goes r answer) (he : a.ending = .tookTooLong) :
    a.budget < a.fault.duration := by
  cases h with
  | answered he' => cases he'.symm.trans he
  | tookTooLong _ hlong => exact hlong
  | cancelled he' => cases he'.symm.trans he

/-- An attempt is cut off at the time at which the request is cancelled. -/
theorem Goes.cancelAt_eq (h : a.Goes r answer) (he : a.ending = .cancelled) :
    r.cancelAt = some a.finish := by
  cases h with
  | answered he' => cases he'.symm.trans he
  | tookTooLong he' => cases he'.symm.trans he
  | cancelled _ ht => exact ht

end Attempt

/-- The line after an attempt, on which it is counted unless it was cut off. -/
def CallEnd.counted {α : Type} : CallEnd α → Line → Line
  | .cancelled, l => l
  | .answered (.ok _), l => l.count false
  | .answered (.error _), l | .tookTooLong, l => l.count true

@[simp] theorem CallEnd.counted_now {α : Type} (e : CallEnd α) (l : Line) :
    (e.counted l).now = l.now := by
  unfold counted
  split <;> rfl

@[simp] theorem CallEnd.counted_faults {α : Type} (e : CallEnd α) (l : Line) :
    (e.counted l).faults = l.faults := by
  unfold counted
  split <;> rfl

@[simp] theorem CallEnd.counted_calls {α : Type} (e : CallEnd α) (l : Line) :
    (e.counted l).calls = l.calls := by
  unfold counted
  split <;> rfl

namespace Client

variable {α : Type} {c : Client} {call : Call} {answer : Answer α} {answers : Nat → Answer α}
  {number : Nat} {l l' : Line} {a : Attempt α}

/-- One call, run: it ends when the store has replied or its budget is used up, and before
that when the request is cancelled. -/
theorem run_callOnce (hlive : c.request.isCancelled l.now = false) (budget : Nat) :
    (c.callOnce call answer budget l).run =
      let fault := (l.record call).1
      let due := l.now + min fault.duration budget
      if c.request.cancelAt.any fun t => t < due then
        (.cancelled, { (l.record call).2 with now := c.request.cancelAt.getD due })
      else
        (if fault.duration ≤ budget then .answered (fault.reply answer) else .tookTooLong,
          { (l.record call).2 with now := due }) := by
  have hlater := Request.isCancelled_eq_false_iff.1 hlive
  have hcut : (c.request.cancelAt.any fun t => decide (t < l.now)) = false := by
    cases ht : c.request.cancelAt with
    | none => rfl
    | some t => simpa using Nat.le_of_lt (hlater t ht)
  unfold callOnce
  have hnow : (l.record call).2.now = l.now := rfl
  generalize l.record call = recorded at hnow
  obtain ⟨fault, l'⟩ := recorded
  simp only at hnow
  rw [← hnow] at hcut hlater ⊢
  cases fault with
  | works | fails _ =>
      simp only [Fault.duration, Fault.reply, Nat.zero_min, Nat.add_zero, hcut, Bool.false_eq_true,
        if_false, Nat.zero_le, if_true, Step.run]
  | delays ms =>
      simp only
      split
      · next hearly =>
          obtain ⟨t, ht, _⟩ := (Option.any_eq_true _ _).1 hearly
          refine Eq.trans ?_ (if_pos hearly).symm
          rw [Step.run_after, ht, Option.getD_some, Nat.max_eq_right (Nat.le_of_lt (hlater t ht))]
          rfl
      · next hearly =>
          refine Eq.trans ?_ (if_neg hearly).symm
          rw [Step.run_after, Nat.max_eq_right (Nat.le_add_right _ _)]
          rfl

/-- The `number`-th attempt of a call, made on the line `l`, leaves the line `l'`. -/
structure Makes (c : Client) (call : Call) (answers : Nat → Answer α) (number : Nat) (l : Line)
    (a : Attempt α) (l' : Line) : Prop where
  number_eq : a.number = number
  start_eq : a.start = l.now
  finish_eq : a.finish = l'.now
  budget_eq : c.request.budget l.now c.policy.timeout = .ok a.budget
  fault_eq : a.fault = (l.record call).1
  run_eq : (c.callOnce call (answers number) a.budget l).run = (a.ending, l')

/-- An attempt goes like one, is recorded, and uses up what the store was going to do.  Either the
cancellation comes before the reply and the budget, or it is the earlier of these two that ends the
attempt. -/
theorem Makes.goes (h : c.Makes call answers number l a l') :
    a.Goes c.request (answers number) ∧ l'.faults = l.faults.tail ∧
      l'.calls = l.calls ++ [call] := by
  have hlive := (Request.of_budget_eq_ok h.budget_eq).1
  have hrun := h.run_eq
  have hstart := h.start_eq
  have hfinish := h.finish_eq
  rw [run_callOnce hlive, ← h.fault_eq] at hrun
  simp only at hrun
  split at hrun
  · next hearly =>
      obtain ⟨t, ht, hdue⟩ := (Option.any_eq_true _ _).1 hearly
      simp only [ht, Option.getD_some, Prod.mk.injEq] at hrun
      obtain ⟨hending, rfl⟩ := hrun
      have hlater := Request.isCancelled_eq_false_iff.1 hlive t ht
      simp only [decide_eq_true_eq] at hdue
      simp only at hfinish
      subst hfinish
      exact ⟨.cancelled hending.symm ht (by omega) (by omega), rfl, rfl⟩
  · next hearly =>
      simp only [Prod.mk.injEq] at hrun
      obtain ⟨hending, rfl⟩ := hrun
      simp only at hfinish
      have hcancel : ∀ t, c.request.cancelAt = some t → a.finish ≤ t := by
        intro t ht
        simp only [ht, Option.any_some, decide_eq_true_eq] at hearly
        omega
      by_cases hdue : a.fault.duration ≤ a.budget
      · rw [if_pos hdue] at hending
        exact ⟨.answered hending.symm hdue (by omega) hcancel, rfl, rfl⟩
      · rw [if_neg hdue] at hending
        exact ⟨.tookTooLong hending.symm (by omega) (by omega) hcancel, rfl, rfl⟩

/-- An attempt that is made has a budget from the request, and goes like one. -/
theorem Makes.genuine (h : c.Makes call answers number l a l') :
    c.request.budget a.start c.policy.timeout = .ok a.budget ∧
      a.Goes c.request (answers a.number) := by
  rw [h.start_eq, h.number_eq]
  exact ⟨h.budget_eq, h.goes.1⟩

/-- It has its number, and meets the fault that was next in line. -/
theorem Makes.numbered (h : c.Makes call answers number l a l') (i : Nat) (b : Attempt α)
    (hb : [a][i]? = some b) : b.number = number + i ∧ b.fault = l.faults.getD i .works := by
  cases i with
  | zero =>
      cases hb
      refine ⟨h.number_eq, h.fault_eq.trans ?_⟩
      cases hfaults : l.faults <;> simp [Line.record, hfaults]
  | succ i => simp at hb

/-- A pause ends when it is over, or when the request is cancelled before. -/
theorem paused_of_run {ms : Nat} {x : Except AccessProblem Unit}
    (h : (c.pause ms).run l = (x, l')) :
    (l'.faults = l.faults ∧ l'.calls = l.calls) ∧
      ((x = .ok () ∧ l'.now = l.now + ms ∧ ∀ t, c.request.cancelAt = some t → l'.now ≤ t) ∨
        (x = .error .cancelled ∧
          ∃ t, c.request.cancelAt = some t ∧ t < l.now + ms ∧ l'.now = max l.now t)) := by
  unfold Job.run pause at h
  simp only at h
  split at h
  · next hearly =>
      obtain ⟨t, ht, hdue⟩ := (Option.any_eq_true _ _).1 hearly
      simp only [Step.run_after, Step.run, ht, Option.getD_some, Prod.mk.injEq] at h
      obtain ⟨rfl, rfl⟩ := h
      exact ⟨⟨rfl, rfl⟩, Or.inr ⟨rfl, t, ht, by simpa using hdue, rfl⟩⟩
  · next hearly =>
      simp only [Step.run_after, Step.run, Prod.mk.injEq] at h
      obtain ⟨rfl, rfl⟩ := h
      refine ⟨⟨rfl, rfl⟩, Or.inl ⟨rfl, Nat.max_eq_right (Nat.le_add_right _ _), fun t ht => ?_⟩⟩
      simp only [ht, Option.any_some, decide_eq_true_eq] at hearly
      simp only
      omega

/-! ### Courses -/

/-- What an attempt settles, if it is the last one; it is made again as long as it failed, there
are further calls left, and it did not use up all the time there was. -/
def settled? (c : Client) (a : Attempt α) : Option (Except AccessProblem α) :=
  match a.ending with
  | .cancelled => some (.error .cancelled)
  | .answered (.ok x) => some (.ok x)
  | .answered (.error problem) =>
    if a.number ≤ c.policy.retries then none else some (.error (.probeFailed a.number problem))
  | .tookTooLong =>
    if a.number ≤ c.policy.retries && !c.request.isExpired a.finish then none
    else some (.error (.probeTimeout a.budget))

/-- An attempt that is made again is not the last one that may be made. -/
theorem number_le_of_settled?_eq_none (h : c.settled? a = none) : a.number ≤ c.policy.retries := by
  unfold settled? at h
  split at h
  · simp at h
  · simp at h
  · split at h
    · assumption
    · simp at h
  · split at h
    · next hagain => simp only [Bool.and_eq_true, decide_eq_true_eq] at hagain; exact hagain.1
    · simp at h

/-- The course of a call from its `number`-th attempt on: the line it begins on, the attempts, the
result, and the line it leaves. -/
inductive Course (c : Client) (call : Call) (answers : Nat → Answer α) :
    Nat → Line → List (Attempt α) → Except AccessProblem α → Line → Prop where
  /-- There is no time for another attempt. -/
  | refused {number : Nat} {l : Line} {problem : AccessProblem} :
      c.request.budget l.now c.policy.timeout = .error problem →
      Course c call answers number l [] (.error problem) l
  /-- The attempt is the last one. -/
  | settled {number : Nat} {l l' : Line} {a : Attempt α} {result : Except AccessProblem α} :
      c.Makes call answers number l a l' → c.settled? a = some result →
      Course c call answers number l [a] result (a.ending.counted l')
  /-- The pause after the attempt is cut off. -/
  | stopped {number : Nat} {l l' l'' : Line} {a : Attempt α} {problem : AccessProblem} :
      c.Makes call answers number l a l' → c.settled? a = none →
      (c.pause (c.policy.backoff * number)).run (a.ending.counted l') = (.error problem, l'') →
      Course c call answers number l [a] (.error problem) l''
  /-- After the attempt and a pause it goes on. -/
  | again {number : Nat} {l l' l'' last : Line} {a : Attempt α} {attempts : List (Attempt α)}
      {result : Except AccessProblem α} :
      c.Makes call answers number l a l' → c.settled? a = none →
      (c.pause (c.policy.backoff * number)).run (a.ending.counted l') = (.ok (), l'') →
      Course c call answers (number + 1) l'' attempts result last →
      Course c call answers number l (a :: attempts) result last

/-- A call that goes on after an attempt has a course if all later ones do. -/
theorem exists_course_again {next : Job α} (hmakes : c.Makes call answers number l a l')
    (hagain : c.settled? a = none)
    (hnext : ∀ l, ∃ attempts, c.Course call answers (number + 1) l attempts
      (next.run l).1 (next.run l).2) :
    let job : Job α := Job.bind (c.pause (c.policy.backoff * number)) fun _ => next
    ∃ attempts, c.Course call answers number l attempts
      (job.run (a.ending.counted l')).1 (job.run (a.ending.counted l')).2 := by
  intro job
  cases hpause : (c.pause (c.policy.backoff * number)).run (a.ending.counted l') with
  | mk x l'' =>
      unfold job
      rw [Job.run_bind, hpause]
      cases x with
      | error problem => exact ⟨[a], .stopped hmakes hagain hpause⟩
      | ok u =>
          obtain ⟨attempts, hcourse⟩ := hnext l''
          exact ⟨a :: attempts, .again hmakes hagain hpause hcourse⟩

/-- A call has a course from each of its attempts on.  By induction over the attempts that are
left; what one of them does to the line is what the next one starts with. -/
theorem exists_course_from (c : Client) (call : Call) (answers : Nat → Answer α) (left : Nat) :
    ∀ number l, number + left = c.policy.retries + 1 → ∃ attempts,
      c.Course call answers number l attempts
        ((c.callFrom call answers left number).run l).1
        ((c.callFrom call answers left number).run l).2 := by
  induction left using Nat.strongRecOn with
  | ind left ih =>
      intro number l hleft
      unfold Job.run callFrom
      cases hbudget : c.request.budget l.now c.policy.timeout with
      | error problem => exact ⟨[], .refused hbudget⟩
      | ok budget =>
          simp only
          rw [Step.run_bind]
          cases hcall : (c.callOnce call (answers number) budget l).run with
          | mk ending l' =>
              have hmakes : c.Makes call answers number l
                  ⟨number, l.now, l'.now, budget, (l.record call).1, ending⟩ l' :=
                ⟨rfl, rfl, rfl, hbudget, rfl, hcall⟩
              match ending with
              | .cancelled => exact ⟨_, .settled hmakes rfl⟩
              | .answered (.ok x) => exact ⟨_, .settled hmakes rfl⟩
              | .answered (.error problem) =>
                  cases left with
                  | zero =>
                      exact ⟨_, .settled hmakes (if_neg (by simp only; omega))⟩
                  | succ left =>
                      exact exists_course_again hmakes (if_pos (by simp only; omega))
                        fun l => ih left (Nat.lt_succ_self left) (number + 1) l (by omega)
              | .tookTooLong =>
                  cases left with
                  | zero =>
                      refine ⟨_, .settled hmakes (if_neg ?_)⟩
                      simp only [Bool.and_eq_true, decide_eq_true_eq]
                      omega
                  | succ left =>
                      simp only
                      split
                      · next hexpired =>
                          exact ⟨_, .settled hmakes (if_neg (by simp [hexpired]))⟩
                      · next hexpired =>
                          refine exists_course_again hmakes (if_pos ?_)
                            fun l => ih left (Nat.lt_succ_self left) (number + 1) l (by omega)
                          simp only [Bool.and_eq_true, decide_eq_true_eq, Bool.not_eq_true']
                          exact ⟨by omega, by simpa using hexpired⟩

/-- **Every run of a call has a course.** -/
theorem exists_course (c : Client) (call : Call) (answers : Nat → Answer α) (l : Line) :
    ∃ attempts, c.Course call answers 1 l attempts ((c.call call answers).run l).1
      ((c.call call answers).run l).2 :=
  exists_course_from c call answers c.policy.retries 1 l (Nat.add_comm _ _)

/-! ### What holds along a course -/

namespace Course

variable {attempts : List (Attempt α)} {result : Except AccessProblem α} {last : Line}

/-- No call is made more often than the policy allows. -/
theorem length_le (h : c.Course call answers number l attempts result last)
    (hnumber : number ≤ c.policy.retries + 1) :
    number + attempts.length ≤ c.policy.retries + 2 := by
  induction h with
  | refused _ => simp only [List.length_nil]; omega
  | settled _ _ => simp only [List.length_singleton]; omega
  | stopped _ _ _ => simp only [List.length_singleton]; omega
  | again hmakes hagain _ _ ih =>
      have hle := number_le_of_settled?_eq_none hagain
      rw [hmakes.number_eq] at hle
      have hlength := ih (by omega)
      simp only [List.length_cons]
      omega

/-- The attempts are made one after the other, each of them uses up one fault, and no call is made
otherwise. -/
theorem numbered (h : c.Course call answers number l attempts result last) :
    (∀ i a, attempts[i]? = some a →
      a.number = number + i ∧ a.fault = l.faults.getD i .works) ∧
    last.calls = l.calls ++ List.replicate attempts.length call := by
  induction h with
  | refused _ => exact ⟨by simp, by simp⟩
  | settled hmakes _ => exact ⟨hmakes.numbered, by simpa using hmakes.goes.2.2⟩
  | stopped hmakes _ hpause =>
      refine ⟨hmakes.numbered, ?_⟩
      rw [(paused_of_run hpause).1.2, CallEnd.counted_calls]
      simpa using hmakes.goes.2.2
  | again hmakes _ hpause _ ih =>
      obtain ⟨hfaults, hcalls⟩ := (paused_of_run hpause).1
      rw [CallEnd.counted_faults, hmakes.goes.2.1] at hfaults
      rw [CallEnd.counted_calls, hmakes.goes.2.2] at hcalls
      refine ⟨fun i b hb => ?_, ?_⟩
      · cases i with
        | zero => exact hmakes.numbered 0 b (by simpa using hb)
        | succ i =>
            obtain ⟨hnumber, hfault⟩ := ih.1 i b (by simpa using hb)
            refine ⟨by omega, hfault.trans ?_⟩
            rw [hfaults]
            simp [List.getD_eq_getElem?_getD, List.getElem?_tail]
      · rw [ih.2, hcalls]
        simp [List.replicate_succ]

/-- Every attempt has a budget and goes like one. -/
theorem genuine (h : c.Course call answers number l attempts result last) :
    ∀ a ∈ attempts, c.request.budget a.start c.policy.timeout = .ok a.budget ∧
      a.Goes c.request (answers a.number) := by
  induction h with
  | refused _ => simp
  | settled hmakes _ | stopped hmakes _ _ => simpa using hmakes.genuine
  | again hmakes _ _ _ ih =>
      intro b hb
      rcases List.mem_cons.1 hb with rfl | hb
      · exact hmakes.genuine
      · exact ih b hb

end Course

/-- How a call comes to its end after its last attempt: the attempt settles it, or the pause after
it is cut off, or there is no time for another attempt after the pause. -/
inductive EndsAfter (c : Client) (a : Attempt α) (result : Except AccessProblem α) (now : Nat) :
    Prop where
  | settled : c.settled? a = some result → now = a.finish → EndsAfter c a result now
  | stopped : c.settled? a = none → result = .error .cancelled →
      c.request.cancelAt = some now → now < a.finish + c.policy.backoff * a.number →
      EndsAfter c a result now
  | refused {problem : AccessProblem} : c.settled? a = none → result = .error problem →
      c.request.budget now c.policy.timeout = .error problem →
      now = a.finish + c.policy.backoff * a.number →
      (∀ t, c.request.cancelAt = some t → now ≤ t) → EndsAfter c a result now

/-- A call comes to its end after its last attempt, or it is refused at once. -/
theorem Course.ends {attempts : List (Attempt α)} {result : Except AccessProblem α} {last : Line}
    (h : c.Course call answers number l attempts result last) :
    (attempts = [] ∧ last = l ∧ ∃ problem, result = .error problem ∧
      c.request.budget l.now c.policy.timeout = .error problem) ∨
    ∃ a, attempts.getLast? = some a ∧ c.EndsAfter a result last.now := by
  induction h with
  | refused hbudget => exact Or.inl ⟨rfl, rfl, _, rfl, hbudget⟩
  | settled hmakes hsettled =>
      refine Or.inr ⟨_, List.getLast?_singleton, .settled hsettled ?_⟩
      rw [CallEnd.counted_now, hmakes.finish_eq]
  | stopped hmakes hagain hpause =>
      refine Or.inr ⟨_, List.getLast?_singleton, ?_⟩
      obtain ⟨_, ⟨hx, _⟩ | ⟨hx, t, ht, hbefore, hnow⟩⟩ := paused_of_run hpause
      · cases hx
      · cases hx
        rw [CallEnd.counted_now, ← hmakes.finish_eq] at hbefore hnow
        rw [Nat.max_eq_right (hmakes.goes.1.finish_le_cancelAt ht)] at hnow
        rw [hnow]
        exact .stopped hagain rfl ht (by rw [hmakes.number_eq]; exact hbefore)
  | again hmakes hagain hpause _ ih =>
      obtain ⟨_, ⟨_, hnow, hcancel⟩ | ⟨hx, _⟩⟩ := paused_of_run hpause
      · refine Or.inr ?_
        rcases ih with ⟨rfl, rfl, problem, hproblem, hbudget⟩ | ⟨b, hb, hends⟩
        · rw [CallEnd.counted_now, ← hmakes.finish_eq, ← hmakes.number_eq] at hnow
          exact ⟨_, List.getLast?_singleton, .refused hagain hproblem hbudget hnow hcancel⟩
        · exact ⟨b, by simp [List.getLast?_cons, hb], hends⟩
      · cases hx

end Client

end GraphWarden
