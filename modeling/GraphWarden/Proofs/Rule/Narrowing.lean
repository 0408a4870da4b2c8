import GraphWarden.Proofs.Rule.Withstanding

/-!
# Checks among fewer nodes

A check may fail although the store works, because a filter cannot be evaluated on one of
the nodes that are asked about.  Asking about fewer nodes never makes this worse:
**what can be checked among some nodes can be checked among fewer**
(`Rule.answers_passing_of_subset`).

On the way through a rule the nodes that are left to be decided stay fewer, because each
single check lets pass those for which the rule holds, and no others (`yields_passing`).
-/

namespace GraphWarden

namespace Job

variable {α β : Type} {t : Nat} {job : Job α} {next : α → Job β}

/-- On a calm line the job is over at once and yields something. -/
def Answers (t : Nat) (job : Job α) : Prop :=
  ∃ x, job.Prompt t (· = x)

theorem answers_pure (x : α) : (Job.pure x).Answers t :=
  ⟨x, prompt_pure rfl⟩

/-- A job that is over at once has one answer.  The calm line on which it answers shows both, so
that they are equal. -/
theorem Prompt.unique {x y : α} (hx : job.Prompt t (· = x)) (hy : job.Prompt t (· = y)) :
    x = y := by
  obtain ⟨_, _, _, rfl, hfirst⟩ := hx { now := t } ⟨rfl, rfl⟩
  obtain ⟨_, _, _, rfl, hsecond⟩ := hy { now := t } ⟨rfl, rfl⟩
  rw [hfirst] at hsecond
  cases hsecond
  rfl

theorem Prompt.not_fails {x : α} (h : job.Prompt t (· = x)) : ¬ job.Gives t Fails := by
  intro hfails
  obtain ⟨l', y, _, _, hjob⟩ := h { now := t } ⟨rfl, rfl⟩
  have hend := hfails { now := t } (Nat.le_refl t)
  rw [hjob] at hend
  exact hend.run

theorem not_answers_fail (problem : AccessProblem) : ¬ (Job.fail problem : Job α).Answers t := by
  rintro ⟨x, hx⟩
  exact hx.not_fails (gives_fail trivial)

/-- What a job yields on one calm line it yields on all that are at the same time. -/
theorem Withstands.prompt_of_run (h : Withstands t job job) {l : Line} (hl : l.Calm t) {x : α}
    (hrun : (job.run l).1 = .ok x) : job.Prompt t (· = x) := by
  cases h with
  | answered y prompt _ _ =>
      obtain ⟨y', rfl, hy⟩ := Prompt.run (l := l) (hl.now ▸ prompt) hl.faults
      rw [hy] at hrun
      cases hrun
      exact prompt
  | failed undisturbed _ =>
      have hend := (undisturbed l (Nat.le_of_eq hl.now.symm)).run
      rw [Job.run] at hrun
      rw [hrun] at hend
      exact absurd hend id

/-- One job after the other answers only if both do. -/
theorem Answers.of_bind (h : (job.bind next).Answers t) (hjob : Withstands t job job)
    (hnext : ∀ x, Withstands t (next x) (next x)) :
    ∃ x, job.Prompt t (· = x) ∧ (next x).Answers t := by
  obtain ⟨_, hboth⟩ := h
  cases hjob with
  | failed undisturbed _ => exact absurd undisturbed.bind_fails hboth.not_fails
  | answered x prompt undisturbed _ =>
      cases hnext x with
      | answered y hy _ _ => exact ⟨x, prompt, y, hy⟩
      | failed hfails _ =>
          exact absurd (undisturbed.bind_ends hfails fun _ _ => trivial) hboth.not_fails

/-- When a first job gives `x` at once and what follows on `x` answers, then both together answer.
-/
theorem Prompt.answers_bind {x : α} (h : job.Prompt t (· = x)) (hnext : (next x).Answers t) :
    (job.bind next).Answers t := by
  obtain ⟨y, hy⟩ := hnext
  exact ⟨y, h.bind fun z hz => hz ▸ hy⟩

end Job

/-- Where a list could be gone through without a limit, every element of it could be decided. -/
theorem isOk_of_takeUpTo {α β : Type} {step : α → Answer (Option β)} {as : List α} :
    ∀ {bs : List β}, takeUpTo step none as = .ok bs → ∀ a ∈ as, ∃ b, step a = .ok b := by
  induction as with
  | nil => simp
  | cons a as ih =>
      intro bs h x hx
      rcases cases_of_takeUpTo_cons h with ⟨ha, hrest⟩ | ⟨b, tail, ha, hrest, -⟩
      · rcases List.mem_cons.1 hx with rfl | hx
        · exact ⟨none, ha⟩
        · exact ih hrest x hx
      · rcases List.mem_cons.1 hx with rfl | hx
        · exact ⟨some b, ha⟩
        · exact ih hrest x hx

/-- A probe among some nodes that is answered is answered among fewer. -/
theorem Graph.probe_isOk_of_subset {g : Graph} {typeName : String} {filter : Filter}
    {more fewer : List String} (hsubset : fewer ⊆ more) {ids : List String}
    (h : g.probe { typeName, filter, candidates := some more } = .ok ids) :
    ∃ ids, g.probe { typeName, filter, candidates := some fewer } = .ok ids := by
  have hmore : ∀ n ∈ g.among more, ∃ b, g.probed? { typeName, filter } n = .ok b :=
    isOk_of_takeUpTo h
  have hfewer : ∀ n ∈ g.among fewer, ∃ b, g.probed? { typeName, filter } n = .ok b := by
    intro n hn
    obtain ⟨hstored, hid⟩ := mem_among_iff.1 hn
    exact hmore n (mem_among_iff.2 ⟨hstored, hsubset hid⟩)
  exact takeUpTo_isOk hfewer none

namespace Client

variable {α : Type} {t : Nat} {c : Client}

/-- A client is a calmed form of itself, so what is said of all calmed forms is said of the client.
-/
theorem calmed_self (c : Client) : c.Calmed c :=
  ⟨rfl, rfl, rfl, id⟩

/-- A call that yields something found the request live. -/
theorem answer_of_prompt {call : Call} {answer : Answer α} {x : α}
    (h : (c.call call fun _ => answer).Prompt t (· = x)) :
    answer = .ok x ∧ c.request.isLive t = true := by
  obtain ⟨l', y, _, rfl, hjob⟩ := h { now := t } ⟨rfl, rfl⟩
  have hgives : (c.call call fun _ => answer).Gives t (Truthful c.request t answer) := gives_call
  have hend := hgives { now := t } (Nat.le_refl t)
  rw [hjob] at hend
  exact hend.run

end Client

namespace Rule

variable {t : Nat} {c : Client} {typeName : String} {more fewer : List String}

/-- A graph rule that can be checked among some nodes can be checked among fewer: its filter is
evaluated on those only, and with the same result on each. -/
theorem answers_graphPassing_of_subset (rule : GraphRule) (hsubset : fewer ⊆ more)
    (h : (graphPassing c rule typeName more).Answers t) :
    (graphPassing c rule typeName fewer).Answers t := by
  unfold graphPassing at h ⊢
  cases hbind : rule.bind? c.request.claims with
  | none => exact Job.answers_pure []
  | some filter =>
      rw [hbind] at h
      obtain ⟨hits, hhits, _⟩ := Job.Answers.of_bind h (Client.withstands_probe c.calmed_self _)
        fun _ => Job.withstands_pure _
      obtain ⟨hanswer, hlive⟩ := Client.answer_of_prompt hhits
      obtain ⟨fewerHits, hfewer⟩ := Graph.probe_isOk_of_subset hsubset (Store.of_online hanswer)
      have hprobe : c.store.probe
          { typeName, filter := filter.getD (.isType typeName), candidates := some fewer } =
            .ok fewerHits := by
        rw [Store.probe, Store.online_eq (Store.offline_eq_false hanswer), hfewer]
      exact Job.Prompt.answers_bind (Client.prompt_call hprobe hlive) (Job.answers_pure _)

/-- Of fewer nodes no others pass. -/
theorem subset_of_prompt_passing {rule : Rule} (hsubset : fewer ⊆ more)
    {passed fewerPassed : List String} (hmore : (rule.passing c typeName more).Prompt t (· = passed))
    (hfewer : (rule.passing c typeName fewer).Prompt t (· = fewerPassed)) :
    fewerPassed ⊆ passed := by
  intro id hid
  have hpassed := (yields_passing rule more).of_prompt hmore id
  obtain ⟨hcandidate, hholds⟩ := ((yields_passing rule fewer).of_prompt hfewer id).1 hid
  exact hpassed.2 ⟨hsubset hcandidate, hholds⟩

/-- Of fewer nodes no others are left to be decided. -/
theorem without_subset_of_prompt_passing {rule : Rule} (hsubset : fewer ⊆ more)
    {passed fewerPassed : List String} (hmore : (rule.passing c typeName more).Prompt t (· = passed))
    (hfewer : (rule.passing c typeName fewer).Prompt t (· = fewerPassed)) :
    without fewer fewerPassed ⊆ without more passed := by
  intro id hid
  obtain ⟨hcandidate, hrefused⟩ := mem_without.1 hid
  refine mem_without.2 ⟨hsubset hcandidate, fun hpassed => hrefused ?_⟩
  have hholds := ((yields_passing rule more).of_prompt hmore id).1 hpassed
  exact ((yields_passing rule fewer).of_prompt hfewer id).2 ⟨hcandidate, hholds.2⟩

mutual

/-- **What can be checked among some nodes can be checked among fewer.** -/
theorem answers_passing_of_subset : (rule : Rule) → {more fewer : List String} → fewer ⊆ more →
    (rule.passing c typeName more).Answers t → (rule.passing c typeName fewer).Answers t
  | rule, more, fewer, hsubset, h => by
      unfold passing at h ⊢
      by_cases hnone : fewer.isEmpty = true
      · rw [if_pos hnone]
        exact Job.answers_pure []
      · have hsome : ¬ more.isEmpty = true := by
          intro hmore
          rw [List.isEmpty_iff.1 hmore] at hsubset
          exact hnone (List.isEmpty_iff.2 (List.subset_nil.1 hsubset))
        rw [if_neg hsome] at h
        rw [if_neg hnone]
        match rule, h with
        | .role rule, _ => exact Job.answers_pure _
        | .graph rule, h => exact answers_graphPassing_of_subset rule hsubset h
        | .combine .all rules, h => exact answers_passingAll_of_subset rules hsubset h
        | .combine .any rules, h => exact answers_passingAny_of_subset rules hsubset h
        | .combine .not [], h => exact absurd h (Job.not_answers_fail _)
        | .combine .not (rule :: _), h =>
            obtain ⟨passed, hpassed, _⟩ := Job.Answers.of_bind h
              (withstands_passing c.calmed_self typeName rule more) fun _ => Job.withstands_pure _
            obtain ⟨fewerPassed, hfewer⟩ := answers_passing_of_subset rule hsubset ⟨passed, hpassed⟩
            exact hfewer.answers_bind (Job.answers_pure _)

/-- The members of a conjunction can be checked in turn among fewer nodes.  Each of them leaves
fewer nodes for the next when it starts with fewer. -/
theorem answers_passingAll_of_subset : (rules : List Rule) → {more fewer : List String} →
    fewer ⊆ more → (passingAll c typeName rules more).Answers t →
    (passingAll c typeName rules fewer).Answers t
  | [], _, fewer, _, _ => by
      unfold passingAll
      exact Job.answers_pure fewer
  | rule :: rules, more, fewer, hsubset, h => by
      unfold passingAll at h ⊢
      obtain ⟨passed, hpassed, hrest⟩ := Job.Answers.of_bind h
        (withstands_passing c.calmed_self typeName rule more)
        fun _ => withstands_passingAll c.calmed_self typeName rules _
      obtain ⟨fewerPassed, hfewer⟩ := answers_passing_of_subset rule hsubset ⟨passed, hpassed⟩
      exact hfewer.answers_bind (answers_passingAll_of_subset rules
        (subset_of_prompt_passing hsubset hpassed hfewer) hrest)

/-- What has passed already plays no part. -/
theorem answers_passingAny_of_subset : (rules : List Rule) →
    {more fewer passed fewerPassed : List String} → fewer ⊆ more →
    (passingAny c typeName rules more passed).Answers t →
    (passingAny c typeName rules fewer fewerPassed).Answers t
  | [], _, _, _, _, _, _ => by
      unfold passingAny
      exact Job.answers_pure _
  | rule :: rules, more, fewer, _, _, hsubset, h => by
      unfold passingAny at h ⊢
      obtain ⟨hits, hhits, hrest⟩ := Job.Answers.of_bind h
        (withstands_passing c.calmed_self typeName rule more)
        fun _ => withstands_passingAny c.calmed_self typeName rules _ _
      obtain ⟨fewerHits, hfewer⟩ := answers_passing_of_subset rule hsubset ⟨hits, hhits⟩
      exact hfewer.answers_bind (answers_passingAny_of_subset rules
        (without_subset_of_prompt_passing hsubset hhits hfewer) hrest)

end

end Rule

namespace Client

variable {t : Nat} {c : Client} {s : Schema} {op : Operation} {typeName : String}
  {more fewer : List String}

/-- A write that can be checked for some nodes of a type can be checked for fewer. -/
theorem answers_writable_of_subset (hsubset : fewer ⊆ more)
    (h : (c.writable s op typeName more).Answers t) :
    (c.writable s op typeName fewer).Answers t := by
  unfold writable at h ⊢
  cases hrule : s.rule? typeName op with
  | none => exact Job.answers_pure _
  | some rule =>
      rw [hrule] at h
      refine Rule.answers_passing_of_subset rule (fun id hid => ?_) h
      exact Names.mem_sorted.2 (hsubset (Names.mem_sorted.1 hid))

end Client

end GraphWarden
