import GraphWarden.Proofs.Timeline.Course

/-!
# Calls that are made again

A call that fails is made again, but not for ever, and what it reports in the end has to be what
happened.
`call_bounded_and_honest` says both of every call: there are at most as many attempts as the policy
allows, each of them begins and is over in time (`Attempt.InTime`), and the result is `Honest` about
them.  An answer is what the store replied in the last attempt; a failure names the number of
attempts and what the store replied in the last one; a call is reported as cancelled, or as too
late, only if it was.

The attempts are those of the course of the call.  Which of them was the last one decides the
result (`Course.ends`), and so it is enough to look at what an attempt can settle
(`Settles`), and at what is said when there is no time for another one.
-/

namespace GraphWarden

variable {α : Type}

/-- An attempt begins before the request has come to its end, and is over when the limit for one
call, the deadline or the cancellation is reached, whichever comes first. -/
structure Attempt.InTime (r : Request) (limit : Nat) (a : Attempt α) : Prop where
  not_cancelled : r.isCancelled a.start = false
  start_le : a.start ≤ a.finish
  within_limit : a.finish ≤ a.start + limit
  within_deadline : ∀ due, r.deadline = some due → a.start < due ∧ a.finish ≤ due
  within_cancelAt : ∀ t, r.cancelAt = some t → a.finish ≤ t

/-- The store gets to reply in an attempt, and this is its reply. -/
def Attempt.Replies (answers : Nat → Answer α) (a : Attempt α) (said : Answer α) : Prop :=
  a.ending = .answered said ∧ a.fault.reply (answers a.number) = said

/-- An attempt whose budget is found within the limit begins and ends in time. -/
theorem Attempt.inTime {r : Request} {limit : Nat} {answer : Answer α} {a : Attempt α}
    (hbudget : r.budget a.start limit = .ok a.budget) (hgoes : a.Goes r answer) :
    a.InTime r limit := by
  obtain ⟨hcancelled, hexpired, hlimit, hdeadline⟩ := Request.of_budget_eq_ok hbudget
  have hfinish := hgoes.finish_le
  refine ⟨hcancelled, hgoes.start_le, by omega, fun due hdue => ⟨?_, ?_⟩,
    fun _ ht => hgoes.finish_le_cancelAt ht⟩
  · simpa [Request.isExpired, hdue] using hexpired
  · have hle := hdeadline due hdue
    omega

namespace Client

variable {c : Client} {call : Call} {answers : Nat → Answer α} {attempts : List (Attempt α)}
  {a : Attempt α} {result : Except AccessProblem α} {now : Nat}

/-- What the result of a call that ends at some time says about its attempts. -/
def Honest (c : Client) (answers : Nat → Answer α) (attempts : List (Attempt α)) (now : Nat) :
    Except AccessProblem α → Prop
  | .ok x => ∃ a, attempts.getLast? = some a ∧ a.Replies answers (.ok x)
  | .error (.probeFailed count cause) =>
    count = c.policy.retries + 1 ∧ attempts.length = count ∧
      ∃ a, attempts.getLast? = some a ∧ a.Replies answers (.error cause)
  | .error .cancelled => c.request.isCancelled now = true
  | .error (.probeTimeout ms) =>
    (∃ a, attempts.getLast? = some a ∧ ms = a.budget ∧ a.budget < a.fault.duration) ∨
      (ms = 0 ∧ c.request.isExpired now = true)
  | .error _ => False

/-- What an attempt that is the last one can settle. -/
inductive Settles (c : Client) (a : Attempt α) : Except AccessProblem α → Prop where
  | answered {x : α} : a.ending = .answered (.ok x) → Settles c a (.ok x)
  | failed {cause : BackendProblem} : a.ending = .answered (.error cause) →
      c.policy.retries < a.number → Settles c a (.error (.probeFailed a.number cause))
  | tookTooLong : a.ending = .tookTooLong → Settles c a (.error (.probeTimeout a.budget))
  | cancelled : a.ending = .cancelled → Settles c a (.error .cancelled)

/-- What was settled by an attempt is one of the results that it can settle. -/
theorem settles_of_settled? (h : c.settled? a = some result) : c.Settles a result := by
  unfold settled? at h
  split at h
  · next hending => cases h; exact .cancelled hending
  · next hending => cases h; exact .answered hending
  · next hending =>
      split at h
      · simp at h
      · cases h; exact .failed hending (by omega)
  · next hending =>
      split at h
      · simp at h
      · cases h; exact .tookTooLong hending

/-- The last of the attempts that a call began with is numbered by how many there are. -/
theorem Course.number_of_getLast? {l last : Line}
    (h : c.Course call answers 1 l attempts result last) (ha : attempts.getLast? = some a) :
    a.number = attempts.length := by
  obtain ⟨hne, _⟩ := List.getLast?_eq_some_iff.1 ha
  rw [List.getLast?_eq_getElem?] at ha
  have hnumber := (h.numbered.1 _ a ha).1
  have hpos := List.length_pos_of_mem (List.mem_of_getElem? ha)
  omega

/-- Who gets no time for an attempt is told why. -/
theorem honest_of_budget_eq_error {problem : AccessProblem}
    (h : c.request.budget now c.policy.timeout = .error problem) :
    c.Honest answers attempts now (.error problem) := by
  rcases Request.of_budget_eq_error h with ⟨rfl, hcancelled⟩ | ⟨rfl, hexpired⟩
  · exact hcancelled
  · exact Or.inr ⟨rfl, hexpired⟩

/-- A result that the last attempt settles is honest about all of them. -/
theorem honest_of_settles (h : c.Settles a result) (ha : attempts.getLast? = some a)
    (hlength : a.number = attempts.length) (hle : attempts.length ≤ c.policy.retries + 1)
    (hgoes : a.Goes c.request (answers a.number)) : c.Honest answers attempts a.finish result := by
  cases h with
  | answered hending => exact ⟨a, ha, hending, hgoes.reply_eq hending⟩
  | failed hending hlast => exact ⟨by omega, by omega, a, ha, hending, hgoes.reply_eq hending⟩
  | tookTooLong hending => exact Or.inl ⟨a, ha, rfl, hgoes.budget_lt hending⟩
  | cancelled hending =>
      unfold Honest Request.isCancelled
      rw [hgoes.cancelAt_eq hending]
      simp

/-- **A call makes a bounded number of attempts, each of them in time, and is honest about what
came of them.**  An answer is what the store replied in the last one, a failure says how many there
were and what the last reply was, and a call ends as cancelled or too late only when it is. -/
theorem call_bounded_and_honest (c : Client) (call : Call) (answers : Nat → Answer α) (l : Line) :
    ∃ attempts : List (Attempt α),
      c.Course call answers 1 l attempts ((c.call call answers).run l).1
        ((c.call call answers).run l).2 ∧
      attempts.length ≤ c.policy.retries + 1 ∧
      ((c.call call answers).run l).2.calls = l.calls ++ List.replicate attempts.length call ∧
      (∀ i a, attempts[i]? = some a → a.number = i + 1 ∧ a.fault = l.faults.getD i .works) ∧
      (∀ a ∈ attempts, a.Goes c.request (answers a.number) ∧
        a.InTime c.request c.policy.timeout) ∧
      c.Honest answers attempts ((c.call call answers).run l).2.now
        ((c.call call answers).run l).1 := by
  obtain ⟨attempts, hcourse⟩ := exists_course c call answers l
  obtain ⟨hnumbered, hcalls⟩ := hcourse.numbered
  have hlength : attempts.length ≤ c.policy.retries + 1 := by
    have hle := hcourse.length_le (by omega)
    omega
  refine ⟨attempts, hcourse, hlength, hcalls, fun i a ha => ?_, fun a ha => ?_, ?_⟩
  · rw [Nat.add_comm]
    exact hnumbered i a ha
  · obtain ⟨hbudget, hgoes⟩ := hcourse.genuine a ha
    exact ⟨hgoes, Attempt.inTime hbudget hgoes⟩
  · rcases hcourse.ends with ⟨_, hlast, problem, hresult, hbudget⟩ | ⟨a, ha, hends⟩
    · rw [hresult, hlast]
      exact honest_of_budget_eq_error hbudget
    · cases hends with
      | settled hsettled hnow =>
          rw [hnow]
          exact honest_of_settles (settles_of_settled? hsettled) ha
            (hcourse.number_of_getLast? ha) hlength (hcourse.genuine a (List.mem_of_getLast? ha)).2
      | stopped _ hresult ht _ =>
          rw [hresult]
          unfold Honest Request.isCancelled
          rw [ht]
          simp
      | refused _ hresult hbudget _ _ =>
          rw [hresult]
          exact honest_of_budget_eq_error hbudget

end Client

end GraphWarden
