import GraphWarden.Timeline.Client

/-!
# What jobs ask the store

A line records the calls that were made on it, whoever made them.  While a job waits others may
add to the record, and what they add says nothing about the job.  `Step.Asks P` therefore looks at
each stretch of a computation by itself, from the point where it goes on to the point where it
waits again or is over: all it adds to the record in between are calls with `P`, and it takes
nothing away.

A call to a store makes the same call again and again (`Client.asks_call`); and where every job
asks only what has `P`, so do jobs one after the other (`Job.Asks.bind`).  Run alone, such a job
leaves behind just the calls it made (`Job.Asks.run`).
-/

namespace GraphWarden

/-- The line has the calls `before` and after them only calls with `P`. -/
def Line.HasAsked (P : Call → Prop) (before : List Call) (l : Line) : Prop :=
  ∃ made, l.calls = before ++ made ∧ ∀ call ∈ made, P call

namespace Line

variable {P : Call → Prop} {before : List Call} {l l' : Line}

theorem hasAsked_self : l.HasAsked P l.calls :=
  ⟨[], by simp⟩

/-- What was asked since some earlier point was asked up to a point in between, and since then. -/
theorem HasAsked.trans (h : l.HasAsked P before) (h' : l'.HasAsked P l.calls) :
    l'.HasAsked P before := by
  obtain ⟨made, hmade, hP⟩ := h
  obtain ⟨later, hlater, hP'⟩ := h'
  refine ⟨made ++ later, by rw [hlater, hmade, List.append_assoc], fun call hcall => ?_⟩
  rcases List.mem_append.1 hcall with hcall | hcall
  · exact hP call hcall
  · exact hP' call hcall

end Line

namespace Step

variable {α β : Type} {P : Call → Prop} {before : List Call}

/-- The computation asks only what has `P`, where the line had the calls `before` when it went
on, and whatever the line looks like when it goes on again. -/
inductive Asks (P : Call → Prop) : List Call → Step α → Prop where
  | finished {before : List Call} {l : Line} {x : α} : l.HasAsked P before →
      Asks P before (.finished l x)
  | waiting {before : List Call} {l : Line} {wake : Nat} {resume : Line → Step α} :
      l.HasAsked P before → (∀ l', Asks P l'.calls (resume l')) →
      Asks P before (.waiting l wake resume)

/-- What was asked before the computation took over may be counted in. -/
theorem Asks.prepend {l : Line} {step : Step α} (hl : l.HasAsked P before)
    (h : step.Asks P l.calls) : step.Asks P before := by
  cases h with
  | finished hasked => exact .finished (hl.trans hasked)
  | waiting hasked hresume => exact .waiting (hl.trans hasked) hresume

/-- A computation that goes on with another one asks what the first asks and then what the second
does. -/
theorem Asks.bind {next : α → Line → Step β} (hnext : ∀ x l, (next x l).Asks P l.calls)
    {step : Step α} (h : step.Asks P before) : (step.bind next).Asks P before := by
  induction h with
  | finished hasked => exact (hnext _ _).prepend hasked
  | waiting hasked _ ih => exact .waiting hasked ih

/-- A computation that waits has asked what it asked before, and will ask what it asks when it goes
on. -/
theorem Asks.after {l : Line} {wake : Nat} {resume : Line → Step α} (hl : l.HasAsked P before)
    (h : ∀ l', (resume l').Asks P l'.calls) : (Step.after l wake resume).Asks P before := by
  unfold Step.after
  split
  · exact (h l).prepend hl
  · exact .waiting hl h

/-- Run to its end, a computation has added to the record what it asked, and nothing else. -/
theorem Asks.run {step : Step α} (h : step.Asks P before) : step.run.2.HasAsked P before := by
  induction h with
  | finished hasked => exact hasked
  | waiting hasked _ ih => exact hasked.trans (ih _)

end Step

namespace Job

variable {α β : Type} {P : Call → Prop}

/-- On every line, and whoever else is on it, the job asks only what has `P`. -/
def Asks (P : Call → Prop) (job : Job α) : Prop :=
  ∀ l, (job l).Asks P l.calls

/-- Run alone, the job adds calls with `P` to the record and nothing else. -/
theorem Asks.run {job : Job α} (h : job.Asks P) (l : Line) : (job.run l).2.HasAsked P l.calls :=
  (h l).run

theorem asks_pure (x : α) : (Job.pure x).Asks P :=
  fun _ => .finished Line.hasAsked_self

theorem asks_fail (problem : AccessProblem) : (Job.fail problem : Job α).Asks P :=
  fun _ => .finished Line.hasAsked_self

/-- Of jobs one after the other, the second may be any of those that the first can lead to. -/
theorem Asks.bind {job : Job α} {next : α → Job β} (h : job.Asks P)
    (hnext : ∀ x, (next x).Asks P) : (job.bind next).Asks P := by
  intro l
  refine (h l).bind fun x l' => ?_
  cases x with
  | ok x => exact hnext x l'
  | error problem => exact .finished Line.hasAsked_self

end Job

namespace Client

variable {α : Type} {P : Call → Prop} {c : Client} {call : Call} {answer : Answer α}
  {answers : Nat → Answer α}

/-- One attempt makes the call once, whatever becomes of it. -/
theorem asks_callOnce (hP : P call) (budget : Nat) (l : Line) :
    (c.callOnce call answer budget l).Asks P l.calls := by
  have hrecorded : (l.record call).2.HasAsked P l.calls := ⟨[call], rfl, by simpa using hP⟩
  unfold callOnce
  generalize l.record call = recorded at hrecorded
  obtain ⟨fault, l'⟩ := recorded
  cases fault with
  | works => exact .finished hrecorded
  | fails problem => exact .finished hrecorded
  | delays ms =>
      simp only
      split
      · exact .after hrecorded fun l'' => .finished Line.hasAsked_self
      · exact .after hrecorded fun l'' => .finished Line.hasAsked_self

/-- In a pause nothing is asked. -/
theorem asks_pause (ms : Nat) : (c.pause ms).Asks P := by
  intro l
  unfold pause
  simp only
  split
  · exact .after Line.hasAsked_self fun l' => .finished Line.hasAsked_self
  · exact .after Line.hasAsked_self fun l' => .finished Line.hasAsked_self

/-- **However often a call is made again, it is the same call.**  By strong induction on the
attempts that are left, since a pause and a further attempt follow every failure but the last. -/
theorem asks_callFrom (hP : P call) (left : Nat) :
    ∀ number, (c.callFrom call answers left number).Asks P := by
  have hcounted : ∀ (l : Line) (isFailed : Bool), (l.count isFailed).HasAsked P l.calls :=
    fun _ _ => ⟨[], by simp [Line.count]⟩
  induction left using Nat.strongRecOn with
  | ind left ih =>
      have hagain : ∀ fewer < left, ∀ number (l' : Line),
          (Job.bind (c.pause (c.policy.backoff * number))
            (fun _ => c.callFrom call answers fewer (number + 1)) (l'.count true)).Asks P l'.calls :=
        fun fewer hfewer number l' =>
          ((asks_pause _).bind (fun _ => ih fewer hfewer (number + 1)) _).prepend
            (hcounted l' true)
      intro number l
      unfold callFrom
      cases c.request.budget l.now c.policy.timeout with
      | error problem => exact .finished Line.hasAsked_self
      | ok budget =>
          refine (asks_callOnce hP budget l).bind fun e l' => ?_
          match e with
          | .cancelled => exact .finished Line.hasAsked_self
          | .answered (.ok _) => exact .finished (hcounted l' _)
          | .answered (.error _) =>
              cases left with
              | zero => exact .finished (hcounted l' _)
              | succ left => exact hagain left (Nat.lt_succ_self left) number l'
          | .tookTooLong =>
              cases left with
              | zero => exact .finished (hcounted l' _)
              | succ left =>
                  simp only
                  split
                  · exact .finished (hcounted l' _)
                  · exact hagain left (Nat.lt_succ_self left) number l'

/-- A call to the store makes the same call in each attempt, and no other. -/
theorem asks_call (hP : P call) : (c.call call answers).Asks P :=
  asks_callFrom hP _ 1

end Client

end GraphWarden
