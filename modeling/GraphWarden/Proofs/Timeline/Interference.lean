import GraphWarden.Timeline.Job

/-!
# Jobs among others

A job that waits cannot know what the line looks like when it goes on: others have
used up faults and turns meanwhile, and time has passed.  What is certain is that the
clock has not gone back.

`Step.Always t P` says that a computation ends with `P`, however the line is changed
while it waits, as long as it stays at or after the time `t`; `Job.Gives t P` says so
of a job, on every line, and `Job.Yields Q` says it only of what the job yields when it
does not fail.  `Job.Prompt t Q` is about the calm lines, on which the store works: there
the job is over at once, at the time `t`, and yields something with `Q`.

All of these are kept by everything that jobs are put together with.  **Side by side**
(`gives_gather`, `prompt_gather`) the jobs yield one answer each, in an order that
nobody knows, and a failure is the failure of one of them.
-/

namespace GraphWarden

namespace Step

variable {α β ε : Type}

/-- The computation ends with `P`, whatever happens to the line meanwhile, as long as
the time does not fall behind `t`. -/
inductive Always (t : Nat) (P : α → Prop) : Step α → Prop where
  | finished {l : Line} {x : α} : t ≤ l.now → P x → Always t P (.finished l x)
  | waiting {l : Line} {wake : Nat} {resume : Line → Step α} : t ≤ l.now →
      (∀ l', t ≤ l'.now → Always t P (resume l')) → Always t P (.waiting l wake resume)

variable {t : Nat} {P : α → Prop}

/-- What is certain may be weakened, at every later place as well. -/
theorem Always.mono {Q : α → Prop} (hPQ : ∀ x, P x → Q x) {step : Step α}
    (h : step.Always t P) : step.Always t Q := by
  induction h with
  | finished hl hx => exact .finished hl (hPQ _ hx)
  | waiting hl _ ih => exact .waiting hl ih

/-- Run alone, a computation ends with what it always ends with. -/
theorem Always.run {step : Step α} (h : step.Always t P) : P step.run.1 := by
  induction h with
  | finished _ hx => exact hx
  | waiting hl _ ih => exact ih _ (Nat.le_trans hl (Nat.le_max_left _ _))

/-- What a computation yields may be changed on the way, and what is certain of it with it. -/
theorem Always.map {Q : β → Prop} {f : α → β} (hf : ∀ x, P x → Q (f x)) {step : Step α}
    (h : step.Always t P) : (step.map f).Always t Q := by
  induction h with
  | finished hl hx => exact .finished hl (hf _ hx)
  | waiting hl _ ih => exact .waiting hl ih

/-- A computation goes on with what another one yields.  The second starts when the first is over,
so not before the time from which on both are certain. -/
theorem Always.bind {Q : β → Prop} {next : α → Line → Step β}
    (hnext : ∀ x, P x → ∀ l, t ≤ l.now → (next x l).Always t Q) {step : Step α}
    (h : step.Always t P) : (step.bind next).Always t Q := by
  induction h with
  | finished hl hx => exact hnext _ hx _ hl
  | waiting hl _ ih => exact .waiting hl ih

/-- Waiting until a later time keeps what is certain of what comes then, since time only passes
meanwhile. -/
theorem Always.after {l : Line} {wake : Nat} {resume : Line → Step α} (hl : t ≤ l.now)
    (h : ∀ l', t ≤ l'.now → (resume l').Always t P) : (Step.after l wake resume).Always t P := by
  unfold Step.after
  split
  · exact h l hl
  · exact .waiting hl h

/-- Nothing is lost when a computation is taken to another place on the line, at or after the time.
-/
theorem Always.moveTo {l : Line} (hl : t ≤ l.now) {step : Step α} (h : step.Always t P) :
    (step.moveTo l).Always t P := by
  cases h with
  | finished _ hx => exact .finished hl hx
  | waiting _ hresume => exact .waiting hl hresume

section Both

variable {P : Except ε α → Prop} {Q : Except ε β → Prop} {R : Except ε (α × β) → Prop}

/-- The second computation while the first one waits: what is left to show is that both
go on well when the first one wakes. -/
theorem Always.besideWaiting (hok : ∀ x y, P (.ok x) → Q (.ok y) → R (.ok (x, y)))
    (herror : ∀ e, P (.error e) ∨ Q (.error e) → R (.error e)) {wake : Nat}
    {resume : Line → Step (Except ε α)} (hresume : ∀ l, t ≤ l.now → (resume l).Always t P)
    {first : Line → Step (Except ε β) → Step (Except ε (α × β))}
    (hfirst : ∀ l other, t ≤ l.now → other.Always t Q → (first l other).Always t R)
    {second : Step (Except ε β)} (h : second.Always t Q) :
    (Step.besideWaiting wake resume first second).Always t R := by
  induction h with
  | finished hl hy =>
      rename_i l y
      cases y with
      | error e => exact .finished hl (herror e (Or.inr hy))
      | ok y =>
          refine .waiting hl fun l' hl' => (hresume l' hl').map fun x hx => ?_
          cases x with
          | error e => exact herror e (Or.inl hx)
          | ok x => exact hok x y hx hy
  | waiting hl hother ih =>
      unfold Step.besideWaiting
      simp only
      split
      · exact .waiting hl fun l' hl' => hfirst l' _ hl' (.waiting hl' hother)
      · exact .waiting hl ih

/-- Two computations side by side end with a pair of what they end with, or with the
failure of one of them. -/
theorem Always.both (hok : ∀ x y, P (.ok x) → Q (.ok y) → R (.ok (x, y)))
    (herror : ∀ e, P (.error e) ∨ Q (.error e) → R (.error e)) {first : Step (Except ε α)}
    (h : first.Always t P) : ∀ {second : Line → Step (Except ε β)},
      (∀ l, t ≤ l.now → (second l).Always t Q) → (Step.both first second).Always t R := by
  induction h with
  | finished hl hx =>
      intro second hsecond
      rename_i l x
      cases x with
      | error e => exact .finished hl (herror e (Or.inl hx))
      | ok x =>
          refine (hsecond l hl).map fun y hy => ?_
          cases y with
          | error e => exact herror e (Or.inr hy)
          | ok y => exact hok x y hx hy
  | waiting hl hresume ih =>
      intro second hsecond
      refine Always.besideWaiting hok herror hresume (fun l other hl hother => ?_) (hsecond _ hl)
      exact ih l hl fun l' hl' => hother.moveTo hl'

end Both

end Step

/-- A line on which the store works, at a time. -/
structure Line.Calm (t : Nat) (l : Line) : Prop where
  now : l.now = t
  faults : l.faults = []

namespace Line

variable {ι : Type}

/-- A shuffle gives the same things in another order. -/
theorem shuffle_perm (xs : List ι) (l : Line) : (l.shuffle xs).1.Perm xs := by
  induction xs generalizing l with
  | nil => exact List.Perm.refl _
  | cons x xs ih =>
      simp only [shuffle]
      refine List.perm_middle.trans (List.Perm.cons x ?_)
      rw [List.take_append_drop]
      exact ih _

/-- What comes first does not depend on what the things are, so they may be replaced before or
after the shuffle. -/
theorem shuffle_map {κ : Type} (f : ι → κ) (xs : List ι) (l : Line) :
    l.shuffle (xs.map f) = ((l.shuffle xs).1.map f, (l.shuffle xs).2) := by
  induction xs generalizing l with
  | nil => rfl
  | cons x xs ih => simp [shuffle, ih, List.map_take, List.map_drop]

/-- Shuffling uses up turns and nothing else. -/
theorem shuffle_line (xs : List ι) (l : Line) :
    (l.shuffle xs).2.now = l.now ∧ (l.shuffle xs).2.faults = l.faults := by
  induction xs generalizing l with
  | nil => exact ⟨rfl, rfl⟩
  | cons x xs ih => exact ih _

end Line

/-- One answer for each of `xs`, in any order. -/
def AnswersTo {ι α : Type} (R : ι → α → Prop) (xs : List ι) (ys : List α) : Prop :=
  ∃ pairs : List (ι × α), (pairs.map Prod.fst).Perm xs ∧ ys.Perm (pairs.map Prod.snd) ∧
    ∀ p ∈ pairs, R p.1 p.2

namespace AnswersTo

variable {ι α : Type} {R : ι → α → Prop} {xs : List ι} {ys : List α}

theorem nil : AnswersTo R [] [] :=
  ⟨[], List.Perm.refl _, List.Perm.refl _, by simp⟩

/-- An answer more for a thing more. -/
theorem cons {x : ι} {y : α} (hy : R x y) (h : AnswersTo R xs ys) :
    AnswersTo R (x :: xs) (y :: ys) := by
  obtain ⟨pairs, hxs, hys, hR⟩ := h
  refine ⟨(x, y) :: pairs, hxs.cons x, hys.cons y, ?_⟩
  intro p hp
  rcases List.mem_cons.1 hp with rfl | hp
  · exact hy
  · exact hR p hp

/-- The order of the things and that of the answers play no part: it is enough that each thing has
an answer of its own. -/
theorem perm {xs' : List ι} {ys' : List α} (h : AnswersTo R xs ys) (hxs : xs.Perm xs')
    (hys : ys'.Perm ys) : AnswersTo R xs' ys' := by
  obtain ⟨pairs, hfst, hsnd, hR⟩ := h
  exact ⟨pairs, hfst.trans hxs, hys.trans hsnd, hR⟩

/-- Each answer is the answer to something. -/
theorem exists_of_mem (h : AnswersTo R xs ys) {y : α} (hy : y ∈ ys) : ∃ x ∈ xs, R x y := by
  obtain ⟨pairs, hfst, hsnd, hR⟩ := h
  obtain ⟨p, hp, rfl⟩ := List.mem_map.1 (hsnd.mem_iff.1 hy)
  exact ⟨p.1, hfst.mem_iff.1 (List.mem_map_of_mem hp), hR p hp⟩

/-- Each question has an answer. -/
theorem exists_answer (h : AnswersTo R xs ys) {x : ι} (hx : x ∈ xs) : ∃ y ∈ ys, R x y := by
  obtain ⟨pairs, hfst, hsnd, hR⟩ := h
  obtain ⟨p, hp, rfl⟩ := List.mem_map.1 (hfst.mem_iff.2 hx)
  exact ⟨p.2, hsnd.mem_iff.2 (List.mem_map_of_mem hp), hR p hp⟩

/-- Where the answers are known, only their order is not. -/
theorem perm_map {f : ι → α} (h : AnswersTo (fun x y => y = f x) xs ys) :
    ys.Perm (xs.map f) := by
  obtain ⟨pairs, hfst, hsnd, hR⟩ := h
  have hmap : pairs.map Prod.snd = (pairs.map Prod.fst).map f := by
    rw [List.map_map]
    exact List.map_congr_left fun p hp => hR p hp
  exact hsnd.trans (hmap ▸ hfst.map f)

end AnswersTo

namespace Job

variable {α β : Type} {t : Nat}

/-- However the store behaves and whoever else is on the line, the job ends with `P`
when it is started at the time `t` or later. -/
def Gives (t : Nat) (P : Except AccessProblem α → Prop) (job : Job α) : Prop :=
  ∀ l, t ≤ l.now → (job l).Always t P

/-- On a calm line the job is over at once, and yields something with `Q`. -/
def Prompt (t : Nat) (Q : α → Prop) (job : Job α) : Prop :=
  ∀ l, l.Calm t → ∃ l' x, l'.Calm t ∧ Q x ∧ job l = .finished l' (.ok x)

theorem Gives.mono {P Q : Except AccessProblem α → Prop} {job : Job α} (h : job.Gives t P)
    (hPQ : ∀ x, P x → Q x) : job.Gives t Q :=
  fun l hl => (h l hl).mono hPQ

/-- What is certain of a job, among whatever else happens, holds when it runs alone. -/
theorem Gives.run {P : Except AccessProblem α → Prop} {job : Job α} {l : Line}
    (h : job.Gives l.now P) : P (job.run l).1 :=
  (h l (Nat.le_refl _)).run

/-- On a calm line a prompt job gives its answer, and gives it without failing. -/
theorem Prompt.run {Q : α → Prop} {job : Job α} {l : Line} (h : job.Prompt l.now Q)
    (hl : l.faults = []) : ∃ x, Q x ∧ (job.run l).1 = .ok x := by
  obtain ⟨l', x, _, hx, hjob⟩ := h l ⟨rfl, hl⟩
  exact ⟨x, hx, by rw [Job.run, hjob, Step.run]⟩

/-- A job that only yields a value yields it, whenever it is asked. -/
theorem gives_pure {P : Except AccessProblem α → Prop} {x : α} (hx : P (.ok x)) :
    (Job.pure x).Gives t P :=
  fun _ hl => .finished hl hx

theorem gives_fail {P : Except AccessProblem α → Prop} {problem : AccessProblem}
    (h : P (.error problem)) : (Job.fail problem).Gives t P :=
  fun _ hl => .finished hl h

/-- Of jobs one after the other, the second is asked only where the first one gave something.  A
failure of the first is a failure of both. -/
theorem Gives.bind {P : Except AccessProblem α → Prop} {Q : Except AccessProblem β → Prop}
    {job : Job α} {next : α → Job β} (h : job.Gives t P)
    (hnext : ∀ x, P (.ok x) → (next x).Gives t Q)
    (herror : ∀ problem, P (.error problem) → Q (.error problem)) : (job.bind next).Gives t Q := by
  intro l hl
  refine (h l hl).bind ?_
  intro x hx l' hl'
  cases x with
  | ok x => exact hnext x hx l' hl'
  | error problem => exact .finished hl' (herror problem hx)

/-- Whatever happens, what the job yields has `Q`; it may fail. -/
def Yields (Q : α → Prop) (job : Job α) : Prop :=
  job.Gives 0 fun
    | .ok x => Q x
    | .error _ => True

/-- What a job yields when it runs alone is one of the things that it may yield. -/
theorem Yields.of_run {Q : α → Prop} {job : Job α} {l : Line} {x : α} (h : job.Yields Q)
    (hrun : (job.run l).1 = .ok x) : Q x := by
  have hend := (h l (Nat.zero_le _)).run
  rw [Job.run] at hrun
  rw [hrun] at hend
  exact hend

/-- What a job may yield may be widened. -/
theorem Yields.mono {P Q : α → Prop} {job : Job α} (h : job.Yields P) (hPQ : ∀ x, P x → Q x) :
    job.Yields Q := by
  refine Gives.mono h fun x hx => ?_
  cases x with
  | ok x => exact hPQ x hx
  | error _ => trivial

theorem yields_pure {Q : α → Prop} {x : α} (hx : Q x) : (Job.pure x).Yields Q :=
  gives_pure hx

/-- A job that fails yields nothing, so anything may be said of it. -/
theorem yields_fail {Q : α → Prop} {problem : AccessProblem} :
    (Job.fail problem : Job α).Yields Q :=
  gives_fail trivial

/-- An answer that is there already is the answer of the job. -/
theorem yields_ofExcept (x : Except AccessProblem α) : (ofExcept x).Yields fun y => x = .ok y := by
  cases x with
  | ok y => exact yields_pure rfl
  | error problem => exact yields_fail

/-- What two jobs yield one after the other: the second may count on what the first one yielded. -/
theorem Yields.bind {P : α → Prop} {Q : β → Prop} {job : Job α} {next : α → Job β}
    (h : job.Yields P) (hnext : ∀ x, P x → (next x).Yields Q) : (job.bind next).Yields Q :=
  Gives.bind h hnext fun _ _ => trivial

theorem prompt_pure {Q : α → Prop} {x : α} (hx : Q x) : (Job.pure x).Prompt t Q :=
  fun l hl => ⟨l, x, hl, hx, rfl⟩

/-- Two prompt jobs are prompt together, because no time passes between them. -/
theorem Prompt.bind {P : α → Prop} {Q : β → Prop} {job : Job α} {next : α → Job β}
    (h : job.Prompt t P) (hnext : ∀ x, P x → (next x).Prompt t Q) : (job.bind next).Prompt t Q := by
  intro l hl
  obtain ⟨l', x, hl', hx, hjob⟩ := h l hl
  obtain ⟨l'', y, hl'', hy, hy'⟩ := hnext x hx l' hl'
  exact ⟨l'', y, hl'', hy, by simp only [Job.bind, hjob, Step.bind, hy']⟩

/-! ### Side by side -/

/-- A job that ends is put among those that have ended; no one of them is lost. -/
theorem arrive_perm (x : Nat × α) (xs : List (Nat × α)) : (arrive x xs).Perm (x :: xs) := by
  induction xs with
  | nil => exact List.Perm.refl _
  | cons y ys ih =>
      rw [arrive]
      split
      · exact (ih.cons y).trans (List.Perm.swap x y ys)
      · exact List.Perm.refl _

variable {ι : Type} {f : ι → Job α}

/-- Side by side, with the times at which they end: the answers come in some order, and each of
them is the answer of one job.  By induction over the jobs that are still to come. -/
theorem gives_gatherStamped {P : ι → Except AccessProblem α → Prop} {xs : List ι}
    (h : ∀ x ∈ xs, (f x).Gives t (P x)) :
    (gatherStamped (xs.map f)).Gives t fun
      | .ok ys => AnswersTo (fun x y => P x (.ok y)) xs (ys.map Prod.snd)
      | .error problem => ∃ x ∈ xs, P x (.error problem) := by
  induction xs with
  | nil => exact gives_pure AnswersTo.nil
  | cons x xs ih =>
      intro l hl
      have hhead : ((f x).stamped l).Always t fun
          | .ok y => P x (.ok y.2)
          | .error problem => P x (.error problem) := by
        refine (h x List.mem_cons_self l hl).bind fun y hy l' hl' => ?_
        cases y with
        | ok y => exact .finished hl' hy
        | error problem => exact .finished hl' hy
      have hboth := hhead.both (R := fun
          | .ok (y, ys) => P x (.ok y.2) ∧
              AnswersTo (fun x y => P x (.ok y)) xs (ys.map Prod.snd)
          | .error problem => ∃ z ∈ x :: xs, P z (.error problem)) ?_ ?_
        (ih fun z hz => h z (List.mem_cons_of_mem _ hz))
      · refine hboth.map fun z hz => ?_
        cases z with
        | error problem => exact hz
        | ok z =>
            have hanswers : AnswersTo (fun x y => P x (.ok y)) (x :: xs) (z.1.2 :: z.2.map Prod.snd) :=
              AnswersTo.cons hz.1 hz.2
            exact hanswers.perm (List.Perm.refl _) ((arrive_perm z.1 z.2).map Prod.snd)
      · intro y ys hy hys
        exact ⟨hy, hys⟩
      · intro problem hproblem
        rcases hproblem with hx | ⟨z, hz, hproblem⟩
        · exact ⟨x, List.mem_cons_self, hx⟩
        · exact ⟨z, List.mem_cons_of_mem _ hz, hproblem⟩

/-- **Jobs side by side** yield one answer each, or the failure of one of them. -/
theorem gives_gather {P : ι → Except AccessProblem α → Prop} {xs : List ι}
    (h : ∀ x ∈ xs, (f x).Gives t (P x)) :
    (gather (xs.map f)).Gives t fun
      | .ok ys => AnswersTo (fun x y => P x (.ok y)) xs ys
      | .error problem => ∃ x ∈ xs, P x (.error problem) := by
  intro l hl
  have hperm := Line.shuffle_perm xs l
  have hshuffled : ∀ x ∈ (l.shuffle xs).1, (f x).Gives t (P x) :=
    fun x hx => h x (hperm.mem_iff.1 hx)
  have hgathered := gives_gatherStamped hshuffled (l.shuffle xs).2
    ((Line.shuffle_line xs l).1 ▸ hl)
  simp only [gather, Line.shuffle_map]
  refine hgathered.map fun ys hys => ?_
  cases ys with
  | ok ys => exact hys.perm hperm (List.Perm.refl _)
  | error problem =>
      obtain ⟨x, hx, hproblem⟩ := hys
      exact ⟨x, hperm.mem_iff.1 hx, hproblem⟩

/-- When none of several jobs fails, each of them has yielded something. -/
theorem yields_gather {Q : ι → α → Prop} {xs : List ι} (h : ∀ x ∈ xs, (f x).Yields (Q x)) :
    (gather (xs.map f)).Yields (AnswersTo Q xs) := by
  refine (gives_gather h).mono fun ys hys => ?_
  cases ys with
  | ok ys => exact hys
  | error _ => trivial

/-- On a calm line all of them end at the same time, in whatever order, and so does the whole. -/
theorem prompt_gatherStamped {Q : ι → α → Prop} {xs : List ι}
    (h : ∀ x ∈ xs, (f x).Prompt t (Q x)) :
    (gatherStamped (xs.map f)).Prompt t fun ys => AnswersTo Q xs (ys.map Prod.snd) := by
  induction xs with
  | nil => exact prompt_pure AnswersTo.nil
  | cons x xs ih =>
      intro l hl
      obtain ⟨l₁, y, hl₁, hy, hhead⟩ := h x List.mem_cons_self l hl
      obtain ⟨l₂, ys, hl₂, hys, htail⟩ := ih (fun z hz => h z (List.mem_cons_of_mem _ hz)) l₁ hl₁
      refine ⟨l₂, arrive (l₁.now, y) ys, hl₂, ?_, ?_⟩
      · exact (AnswersTo.cons hy hys).perm (List.Perm.refl _)
          ((arrive_perm (l₁.now, y) ys).map Prod.snd)
      · simp only [List.map_cons, gatherStamped, stamped, hhead, Step.bind, Step.both, htail,
          Step.map, Except.map]

/-- On a calm line, jobs side by side are over at once when each of them is. -/
theorem prompt_gather {Q : ι → α → Prop} {xs : List ι} (h : ∀ x ∈ xs, (f x).Prompt t (Q x)) :
    (gather (xs.map f)).Prompt t (AnswersTo Q xs) := by
  intro l hl
  have hperm := Line.shuffle_perm xs l
  have hline := Line.shuffle_line xs l
  have hshuffled : ∀ x ∈ (l.shuffle xs).1, (f x).Prompt t (Q x) :=
    fun x hx => h x (hperm.mem_iff.1 hx)
  obtain ⟨l', ys, hl', hys, hgathered⟩ := prompt_gatherStamped hshuffled (l.shuffle xs).2
    ⟨hline.1.trans hl.now, hline.2.trans hl.faults⟩
  refine ⟨l', ys.map Prod.snd, hl', hys.perm hperm (List.Perm.refl _), ?_⟩
  simp only [gather, Line.shuffle_map, hgathered, Step.map, Except.map]

end Job

end GraphWarden
