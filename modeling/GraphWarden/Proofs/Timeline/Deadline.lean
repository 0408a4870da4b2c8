import GraphWarden.Proofs.Timeline.Course

/-!
# Calls and the deadline

Every attempt of a call is over by the deadline, because its budget is cut to what is left.  The
pause between two attempts is not cut: it ends when it is over, or when the request is cancelled,
and only the next attempt notices that the deadline has come.  So a call may still be at work after
the deadline, asleep.

`late_iff_oversleeps` says when.  A call that begins before the deadline is over later than that
exactly if it `Oversleeps` after its last attempt.  It then reports that it is too late, or that it
was cancelled, and it is late by no more than its longest pause.
-/

namespace GraphWarden.Client

variable {α : Type} {c : Client} {call : Call} {answers : Nat → Answer α} {l last : Line}
  {attempts : List (Attempt α)} {a : Attempt α} {result : Except AccessProblem α} {due now : Nat}

/-- The attempt is to be made again, and the pause after it goes on beyond the deadline: neither is
it short enough, nor is the request cancelled by then. -/
structure Oversleeps (c : Client) (due : Nat) (a : Attempt α) : Prop where
  again : c.settled? a = none
  late : due < a.finish + c.policy.backoff * a.number
  live : c.request.isCancelled due = false

/-- Every attempt is over by the deadline. -/
theorem Course.finish_le_deadline {number : Nat}
    (h : c.Course call answers number l attempts result last)
    (hdue : c.request.deadline = some due) : ∀ a ∈ attempts, a.finish ≤ due := by
  intro a ha
  obtain ⟨hbudget, hgoes⟩ := h.genuine a ha
  obtain ⟨_, _, _, hdeadline⟩ := Request.of_budget_eq_ok hbudget
  exact Nat.le_trans hgoes.finish_le (hdeadline due hdue)

/-- After its last attempt a call ends later than the deadline only if it oversleeps. -/
theorem EndsAfter.lt_now_iff (h : c.EndsAfter a result now) (hfinish : a.finish ≤ due) :
    due < now ↔ c.Oversleeps due a := by
  constructor
  · intro hlate
    cases h with
    | settled _ hnow => omega
    | stopped hagain _ ht hbefore =>
        refine ⟨hagain, by omega, Request.isCancelled_eq_false_iff.2 fun t ht' => ?_⟩
        rw [ht] at ht'
        cases ht'
        exact hlate
    | refused hagain _ _ hnow hcancel =>
        refine ⟨hagain, by omega, Request.isCancelled_eq_false_iff.2 fun t ht => ?_⟩
        exact Nat.lt_of_lt_of_le hlate (hcancel t ht)
  · intro ⟨hagain, hlate, hlive⟩
    cases h with
    | settled hsettled _ => cases hagain.symm.trans hsettled
    | stopped _ _ ht _ => exact Request.isCancelled_eq_false_iff.1 hlive _ ht
    | refused _ _ _ hnow _ => omega

/-- A call that oversleeps reports that it is too late or was cancelled, and its pause is one
between two attempts. -/
theorem EndsAfter.of_oversleeps (h : c.EndsAfter a result now) (hover : c.Oversleeps due a) :
    (result = .error (.probeTimeout 0) ∨ result = .error .cancelled) ∧
      now ≤ a.finish + c.policy.backoff * c.policy.retries := by
  have hpause : c.policy.backoff * a.number ≤ c.policy.backoff * c.policy.retries :=
    Nat.mul_le_mul_left _ (number_le_of_settled?_eq_none hover.again)
  cases h with
  | settled hsettled _ => cases hover.again.symm.trans hsettled
  | stopped _ hresult _ hbefore => exact ⟨Or.inr hresult, by omega⟩
  | refused _ hresult hbudget hnow _ =>
      refine ⟨?_, by omega⟩
      rcases Request.of_budget_eq_error hbudget with ⟨rfl, _⟩ | ⟨rfl, _⟩
      · exact Or.inr hresult
      · exact Or.inl hresult

/-- **A call is over by the deadline unless it oversleeps after its last attempt**; every attempt
is over by then.  A late call reports the deadline or a cancellation, and it is late by one pause
at most. -/
theorem late_iff_oversleeps (call : Call) (answers : Nat → Answer α)
    (hdue : c.request.deadline = some due) (hl : l.now < due) :
    ∃ attempts : List (Attempt α),
      c.Course call answers 1 l attempts ((c.call call answers).run l).1
        ((c.call call answers).run l).2 ∧
      (∀ a ∈ attempts, a.finish ≤ due) ∧
      (due < ((c.call call answers).run l).2.now ↔
        ∃ a, attempts.getLast? = some a ∧ c.Oversleeps due a) ∧
      (due < ((c.call call answers).run l).2.now →
        (((c.call call answers).run l).1 = .error (.probeTimeout 0) ∨
          ((c.call call answers).run l).1 = .error .cancelled) ∧
        ((c.call call answers).run l).2.now ≤ due + c.policy.backoff * c.policy.retries) := by
  obtain ⟨attempts, hcourse⟩ := exists_course c call answers l
  have hfinish := hcourse.finish_le_deadline hdue
  refine ⟨attempts, hcourse, hfinish, ?_⟩
  rcases hcourse.ends with ⟨rfl, hlast, _⟩ | ⟨a, ha, hends⟩
  · -- The request is refused at once, and no time passes.
    have hnotlate : ¬ due < ((c.call call answers).run l).2.now := by rw [hlast]; omega
    exact ⟨⟨fun hlate => absurd hlate hnotlate, fun ⟨a, ha, _⟩ => by simp at ha⟩,
      fun hlate => absurd hlate hnotlate⟩
  · have hle := hfinish a (List.mem_of_getLast? ha)
    have hlate := hends.lt_now_iff hle
    refine ⟨⟨fun h => ⟨a, ha, hlate.1 h⟩, ?_⟩, fun h => ?_⟩
    · rintro ⟨b, hb, hover⟩
      cases ha.symm.trans hb
      exact hlate.2 hover
    · obtain ⟨hresult, hnow⟩ := hends.of_oversleeps (hlate.1 h)
      exact ⟨hresult, by omega⟩

/-- Who pauses for a tenth of a second, and has half of that. -/
def hasty : Client where
  store := { graph := .empty }
  policy := { backoff := 100 }
  request := { deadline := some 50 }

/-- The store is down when it is first called. -/
def downAtFirst : Line where
  faults := [.fails (.unavailable "down")]

def ownedTodo : Probe where
  typeName := "Todo"
  filter := .has "owner"
  limit := some 1

/-- The call begins in time, and ends when the pause does, at twice the time there was. -/
theorem hasty_late :
    hasty.request.deadline = some 50 ∧ downAtFirst.now < 50 ∧
      ((hasty.probe ownedTodo).run downAtFirst).2.now = 100 :=
  ⟨rfl, by decide, by decide +kernel⟩

/-- It is the pause after the only attempt that keeps the call. -/
theorem hasty_oversleeps :
    hasty.request.deadline = some 50 ∧ downAtFirst.now < 50 ∧
      ∃ attempts : List (Attempt (List String)),
        (∀ a ∈ attempts, a.finish ≤ 50) ∧
        ∃ a, attempts.getLast? = some a ∧ hasty.Oversleeps 50 a := by
  obtain ⟨attempts, _, hfinish, hlate, _⟩ :=
    late_iff_oversleeps (.probe ownedTodo) (fun _ => hasty.store.probe ownedTodo)
      (show hasty.request.deadline = some 50 from rfl) (show downAtFirst.now < 50 by decide)
  exact ⟨rfl, by decide, attempts, hfinish, hlate.1 (by decide +kernel)⟩

end GraphWarden.Client
