import GraphWarden.Check
import GraphWarden.Proofs.Filter.Repeats
import GraphWarden.Proofs.Rule.Cascade
import GraphWarden.Proofs.Timeline.Asking

/-!
# No variable leaves a rule

The variables of a rule stand for claims, and a store knows nothing of claims.  So a filter that
goes out must not hold a variable any more, at no depth (`Filter.IsBound`); a store would take it
for a literal.

Binding a filter leaves no variable in it.  What is left visible is put together from bound
filters, and that adds none (`bound_of_visibility`); and each probe of a gate carries a bound
filter, whatever the store answers to the probes before (`asks_holds`, `asks_passing`).

That binding does not fail for want of a claim is another matter.  It rests on the declaration of
the rule: a rule that was declared uses only variables that it declares (`GraphRule.Closed`), so
its graph rules deny exactly when a declared variable has no claim
(`GraphRule.visibility_eq_denied_iff`).
-/

namespace GraphWarden

/-- No variable occurs in the filter, at any depth. -/
def Filter.IsBound (f : Filter) : Prop :=
  f.occurrences = []

/-- The call is a probe whose filter holds no variable. -/
def Call.IsBoundProbe : Call → Prop
  | .probe p => p.filter.IsBound
  | .execute _ | .typesOf _ => False

namespace Filter

/-- The variables of several filters are all bound when those of each filter are. -/
theorem occurrencesParts_eq_nil_iff {fs : List Filter} :
    occurrencesParts fs = [] ↔ ∀ f ∈ fs, f.IsBound := by
  induction fs with
  | nil => simp [occurrencesParts]
  | cons f fs ih => simp [occurrencesParts, ih, IsBound]

theorem bound_all_iff {parts : List Filter} : (all parts).IsBound ↔ ∀ f ∈ parts, f.IsBound := by
  rw [IsBound, occurrences, occurrencesParts_eq_nil_iff]

theorem bound_any_iff {parts : List Filter} : (any parts).IsBound ↔ ∀ f ∈ parts, f.IsBound := by
  rw [IsBound, occurrences, occurrencesParts_eq_nil_iff]

theorem bound_nothing : nothing.IsBound := by
  rw [IsBound, occurrences]

theorem bound_isType (name : String) : (isType name).IsBound := by
  rw [IsBound, occurrences]

/-- What a filter is a conjunction of is bound with it, be that its parts or the filter alone. -/
theorem IsBound.conjuncts {f : Filter} (h : f.IsBound) : ∀ part ∈ f.conjuncts, part.IsBound := by
  cases f with
  | all parts => exact bound_all_iff.1 h
  | _ => simpa [Filter.conjuncts] using h

/-- What a filter is a disjunction of is bound with it. -/
theorem IsBound.disjuncts {f : Filter} (h : f.IsBound) : ∀ part ∈ f.disjuncts, part.IsBound := by
  cases f with
  | any parts => exact bound_any_iff.1 h
  | _ => simpa [Filter.disjuncts] using h

/-- Dropping repeats adds no variable, and neither does taking filters apart. -/
theorem bound_unrepeated {parts : Filter → List Filter} {fs : List Filter}
    (h : ∀ f ∈ fs, ∀ part ∈ parts f, part.IsBound) :
    ∀ part ∈ unrepeated [] (fs.flatMap parts), part.IsBound := by
  intro part hpart
  rcases mem_of_mem_unrepeated hpart with hpart | hpart
  · simp at hpart
  · obtain ⟨f, hf, hpart⟩ := List.mem_flatMap.1 hpart
    exact h f hf part hpart

/-- Bound filters have a bound conjunction: parts are taken out of one another and dropped where
they repeat, but nothing is added to them. -/
theorem bound_andAll {fs : List Filter} (h : ∀ f ∈ fs, f.IsBound) : (andAll fs).IsBound := by
  have hparts := bound_unrepeated fun f hf => (h f hf).conjuncts
  unfold andAll
  split
  · exact bound_nothing
  · split
    · next f hf => exact hparts f (by simp [hf])
    · exact bound_all_iff.2 hparts

/-- Bound filters have a bound disjunction, for the same reason. -/
theorem bound_orAll {fs : List Filter} (h : ∀ f ∈ fs, f.IsBound) : (orAll fs).IsBound := by
  have hbound : ∀ f ∈ fs.filter fun f => !f.isNothing, ∀ part ∈ f.disjuncts, part.IsBound :=
    fun f hf => (h f (List.mem_filter.1 hf).1).disjuncts
  have hparts := bound_unrepeated hbound
  unfold orAll
  split
  · exact bound_nothing
  · next f hf => exact hparts f (by simp [hf])
  · exact bound_any_iff.2 hparts

end Filter

/-! ### What is left visible -/

/-- A filter that is left for the store holds no variable. -/
def Visibility.IsBound (v : Visibility) : Prop :=
  ∀ f, v = .restricted f → f.IsBound

namespace GraphRule

variable {rule : GraphRule} {claims : Claims}

/-- A graph rule that is bound to claims has a filter without variables, if it has a filter at all.
-/
theorem bound_of_bind? {filter : Option Filter} (h : rule.bind? claims = some filter) :
    ∀ f ∈ filter, f.IsBound := by
  unfold bind? at h
  split at h
  · cases hfilter : rule.filter with
    | none =>
        rw [hfilter] at h
        cases h
        simp
    | some f =>
        rw [hfilter] at h
        obtain ⟨f', hf', rfl⟩ := Option.map_eq_some_iff.1 h
        simpa [Filter.IsBound] using Filter.bind?_occurrences claims f f' hf'
  · simp at h

/-- What a rule leaves visible has no variables in it, so that it can be handed to a store. -/
theorem bound_visibility : (rule.visibility claims).IsBound := by
  intro f hf
  unfold visibility at hf
  split at hf
  · simp at hf
  · simp at hf
  · next hbind =>
      cases hf
      exact bound_of_bind? hbind f rfl

/-- **A graph rule denies exactly when a variable that it declares has no claim**, whether it uses
the variable or not. -/
theorem visibility_eq_denied_iff (hclosed : rule.Closed) :
    rule.visibility claims = .denied ↔ ∃ name ∈ rule.declared, claims.has name = false := by
  rw [visibility]
  cases hall : rule.declared.all claims.has with
  | true =>
      have hclaims := List.all_eq_true.1 hall
      have hclaimed : ¬ ∃ name ∈ rule.declared, claims.has name = false := by
        rintro ⟨name, hname, hlacks⟩
        simp [hclaims name hname] at hlacks
      rw [bind?_eq_filled hclosed hclaims]
      cases rule.filter with
      | none => simpa using hclaimed
      | some f => simpa using hclaimed
  | false =>
      obtain ⟨name, hname, hlacks⟩ := List.all_eq_false.1 hall
      simp only [bind?, hall, Bool.false_eq_true, if_false, true_iff]
      exact ⟨name, hname, by simpa using hlacks⟩

end GraphRule

namespace Rule

variable {complement : Bool} {claims : Claims}

/-- What all of several bound filters leave visible is bound. -/
theorem bound_ofAll {parts : List Filter} (h : ∀ f ∈ parts, f.IsBound) :
    (Visibility.ofAll parts).IsBound := by
  intro f hf
  cases parts with
  | nil => simp [Visibility.ofAll] at hf
  | cons part parts =>
      cases hf
      exact Filter.bound_andAll h

/-- What some of several bound filters leave visible is bound. -/
theorem bound_ofAny {parts : List Filter} (h : ∀ f ∈ parts, f.IsBound) :
    (Visibility.ofAny parts).IsBound := by
  intro f hf
  cases parts with
  | nil => simp [Visibility.ofAny] at hf
  | cons part parts =>
      cases hf
      exact Filter.bound_orAll h

/-- A negation negates the filter that is there and brings no variable with it. -/
theorem bound_negated {before after : Visibility} (h : before.IsBound)
    (hafter : before.negated complement = .ok after) : after.IsBound := by
  intro f hf
  subst hf
  cases before with
  | unrestricted | denied => simp [Visibility.negated] at hafter
  | restricted inner =>
      cases complement with
      | false => simp [Visibility.negated] at hafter
      | true =>
          cases hafter
          simpa [Filter.IsBound, Filter.occurrences] using h inner rfl

mutual

/-- **No variable is left in what a rule leaves visible.** -/
theorem bound_of_visibility : (rule : Rule) → (out : Visibility) →
    rule.visibility complement claims = .ok out → out.IsBound
  | .role rule, out, h => by
      rw [visibility] at h
      cases h
      intro f hf
      split at hf <;> simp at hf
  | .graph rule, out, h => by
      rw [visibility] at h
      cases h
      exact rule.bound_visibility
  | .combine .all rules, out, h => by
      rw [visibility] at h
      exact bound_of_allVisible rules [] out (by simp) h
  | .combine .any rules, out, h => by
      rw [visibility] at h
      exact bound_of_anyVisible rules [] out (by simp) h
  | .combine .not [], out, h => by simp [visibility] at h
  | .combine .not (rule :: rules), out, h => by
      rw [visibility] at h
      cases hrule : rule.visibility complement claims with
      | error problem => simp [hrule, bind, Except.bind] at h
      | ok inner =>
          rw [hrule] at h
          exact bound_negated (bound_of_visibility rule inner hrule) h

/-- A conjunction of rules gathers the filters of its parts until one of them denies; what it has
gathered before is bound. -/
theorem bound_of_allVisible : (rules : List Rule) → (parts : List Filter) → (out : Visibility) →
    (∀ f ∈ parts, f.IsBound) → allVisible complement claims parts rules = .ok out → out.IsBound
  | [], parts, out, hparts, h => by
      rw [allVisible] at h
      cases h
      exact bound_ofAll hparts
  | rule :: rules, parts, out, hparts, h => by
      rw [allVisible] at h
      cases hrule : rule.visibility complement claims with
      | error problem => simp [hrule, bind, Except.bind] at h
      | ok here =>
          have hhere := bound_of_visibility rule here hrule
          rw [hrule] at h
          cases here with
          | denied =>
              cases h
              exact hhere
          | unrestricted => exact bound_of_allVisible rules parts out hparts h
          | restricted f =>
              refine bound_of_allVisible rules (parts ++ [f]) out ?_ h
              simpa [or_imp, forall_and] using ⟨hparts, hhere f rfl⟩

/-- A disjunction of rules gathers them until one of its parts lets every node through. -/
theorem bound_of_anyVisible : (rules : List Rule) → (parts : List Filter) → (out : Visibility) →
    (∀ f ∈ parts, f.IsBound) → anyVisible complement claims parts rules = .ok out → out.IsBound
  | [], parts, out, hparts, h => by
      rw [anyVisible] at h
      cases h
      exact bound_ofAny hparts
  | rule :: rules, parts, out, hparts, h => by
      rw [anyVisible] at h
      cases hrule : rule.visibility complement claims with
      | error problem => simp [hrule, bind, Except.bind] at h
      | ok here =>
          have hhere := bound_of_visibility rule here hrule
          rw [hrule] at h
          cases here with
          | unrestricted =>
              cases h
              exact hhere
          | denied => exact bound_of_anyVisible rules parts out hparts h
          | restricted f =>
              refine bound_of_anyVisible rules (parts ++ [f]) out ?_ h
              simpa [or_imp, forall_and] using ⟨hparts, hhere f rfl⟩

end

/-! ### Gates -/

variable {c : Client} {typeName : String}

/-- The filter of a probe is the bound filter of a graph rule, or asks for a type. -/
theorem bound_getD {rule : GraphRule} {filter : Option Filter}
    (h : rule.bind? c.request.claims = some filter) (name : String) :
    (filter.getD (.isType name)).IsBound := by
  cases filter with
  | none => exact Filter.bound_isType name
  | some f => exact GraphRule.bound_of_bind? h f rfl

/-- A graph rule is asked with one probe, for its bound filter. -/
theorem asks_graphHolds (rule : GraphRule) : (graphHolds c rule).Asks Call.IsBoundProbe := by
  unfold graphHolds
  cases hbind : rule.bind? c.request.claims with
  | none => exact Job.asks_pure false
  | some filter =>
      have hprobe := bound_getD hbind rule.rootType
      exact (Client.asks_call hprobe).bind fun _ => Job.asks_pure _

mutual

/-- **A rule that is asked whether it holds probes with bound filters only.** -/
theorem asks_holds : (rule : Rule) → (rule.holds c).Asks Call.IsBoundProbe
  | .role rule => by
      unfold holds
      exact Job.asks_pure _
  | .graph rule => by
      unfold holds
      exact asks_graphHolds rule
  | .combine .all rules => by
      unfold holds
      exact asks_holdsAll rules
  | .combine .any rules => by
      unfold holds
      exact asks_holdsAny rules
  | .combine .not [] => by
      unfold holds
      exact Job.asks_fail _
  | .combine .not (rule :: _) => by
      unfold holds
      exact (asks_holds rule).bind fun _ => Job.asks_pure _

/-- A conjunction asks its rules in turn and stops at the first that does not hold; each of its
probes is one of theirs. -/
theorem asks_holdsAll : (rules : List Rule) → (holdsAll c rules).Asks Call.IsBoundProbe
  | [] => by
      unfold holdsAll
      exact Job.asks_pure true
  | rule :: rules => by
      unfold holdsAll
      refine (asks_holds rule).bind fun b => ?_
      cases b with
      | true => exact asks_holdsAll rules
      | false => exact Job.asks_pure false

/-- A disjunction asks its rules in turn and stops at the first that holds. -/
theorem asks_holdsAny : (rules : List Rule) → (holdsAny c rules).Asks Call.IsBoundProbe
  | [] => by
      unfold holdsAny
      exact Job.asks_pure false
  | rule :: rules => by
      unfold holdsAny
      refine (asks_holds rule).bind fun b => ?_
      cases b with
      | true => exact Job.asks_pure true
      | false => exact asks_holdsAny rules

end

/-- For given nodes a graph rule asks one probe too, with the nodes as candidates beside its
filter. -/
theorem asks_graphPassing (rule : GraphRule) (candidates : List String) :
    (graphPassing c rule typeName candidates).Asks Call.IsBoundProbe := by
  unfold graphPassing
  cases hbind : rule.bind? c.request.claims with
  | none => exact Job.asks_pure []
  | some filter =>
      have hprobe := bound_getD hbind typeName
      exact (Client.asks_call hprobe).bind fun _ => Job.asks_pure _

mutual

/-- **A rule that is asked which nodes it lets pass probes with bound filters only.** -/
theorem asks_passing : (rule : Rule) → (candidates : List String) →
    (rule.passing c typeName candidates).Asks Call.IsBoundProbe
  | rule, candidates => by
      unfold passing
      split
      · exact Job.asks_pure []
      · match rule with
        | .role rule => exact Job.asks_pure _
        | .graph rule => exact asks_graphPassing rule candidates
        | .combine .all rules => exact asks_passingAll rules candidates
        | .combine .any rules => exact asks_passingAny rules candidates []
        | .combine .not [] => exact Job.asks_fail _
        | .combine .not (rule :: _) =>
            exact (asks_passing rule candidates).bind fun _ => Job.asks_pure _

/-- A conjunction asks each rule about the candidates that have passed the ones before.  Which
these are depends on the store, but the probes are bound whichever they are. -/
theorem asks_passingAll : (rules : List Rule) → (candidates : List String) →
    (passingAll c typeName rules candidates).Asks Call.IsBoundProbe
  | [], candidates => by
      unfold passingAll
      exact Job.asks_pure candidates
  | rule :: rules, candidates => by
      unfold passingAll
      exact (asks_passing rule candidates).bind fun remaining => asks_passingAll rules remaining

/-- A disjunction asks each rule about the candidates that no rule before has let pass. -/
theorem asks_passingAny : (rules : List Rule) → (pending passed : List String) →
    (passingAny c typeName rules pending passed).Asks Call.IsBoundProbe
  | [], pending, passed => by
      unfold passingAny
      exact Job.asks_pure passed
  | rule :: rules, pending, passed => by
      unfold passingAny
      exact (asks_passing rule pending).bind fun hits => asks_passingAny rules _ _

end

/-- **Variables are bound before a filter leaves the rule.**  For every declared rule and all
claims: what it leaves visible holds no variable; the calls that its gates make, asked with or
without nodes, are probes that hold none; and its graph rules deny exactly when a declared variable
has no claim, so that with all of them claimed no filter fails to be bound. -/
theorem variables_are_bound {d : Declaration} {rule : Rule} (hrule : compile d = .ok rule)
    (claims : Claims) :
    (∀ complement f, rule.visibility complement claims = .ok (.restricted f) → f.IsBound) ∧
    (∀ c : Client, c.request.claims = claims → (rule.holds c).Asks Call.IsBoundProbe ∧
      ∀ typeName candidates, (rule.passing c typeName candidates).Asks Call.IsBoundProbe) ∧
    ∀ part, Within (.graph part) rule →
      (∀ complement, (Rule.graph part).visibility complement claims = .ok .denied ↔
        ∃ name ∈ part.declared, claims.has name = false) ∧
      ((∀ name ∈ part.declared, claims.has name = true) →
        ∀ f, part.filter = some f → ∃ f', f.bind? claims = some f') := by
  refine ⟨fun complement f hf => bound_of_visibility rule _ hf f rfl,
    fun c _ => ⟨asks_holds rule, fun _ candidates => asks_passing rule candidates⟩, ?_⟩
  intro part hpart
  have hclosed : part.Closed := formed_of_compile d rule hrule _ hpart
  refine ⟨fun complement => ?_, fun hclaims f hf => ?_⟩
  · rw [visibility, Except.ok.injEq]
    exact GraphRule.visibility_eq_denied_iff hclosed
  · exact ⟨_, Filter.bind?_eq_filled f fun name hname => hclaims name (hclosed f hf name hname)⟩

/-- Letters to the user or to everybody, or to the user's office.  The first rule declares a country
that it does not use. -/
def mail : Declaration := .any [
  .rule ("query($U: ID, $C: ID) \x7b queryLetter(filter: " ++
    "\x7b to: \x7b in: [$U, \"all\"] \x7d \x7d) \x7b id \x7d \x7d"),
  .rule ("query($O: ID) \x7b queryLetter \x7b office(filter: " ++
    "\x7b name: \x7b eq: $O \x7d \x7d) \x7b id \x7d \x7d \x7d")]

def ofBea : Claims :=
  (Claims.none.claiming "U" (.text "bea")).claiming "C" (.text "is")

/-- Bea asks a store that has no letters. -/
def mailbox : Client where
  store := { graph := .empty }
  request := { claims := ofBea }

/-- Bea claims no office: the rule of the office denies, and only the other one is probed for. -/
theorem mail_is_bound :
    ∃ rule f, compile mail = .ok rule ∧ rule.visibility true ofBea = .ok (.restricted f) ∧
      f.IsBound ∧
      (∀ call ∈ ((rule.passing mailbox "Letter" ["l1"]).run {}).2.calls, call.IsBoundProbe) ∧
      ((rule.passing mailbox "Letter" ["l1"]).run {}).2.calls.length = 1 ∧
      ∃ part ∈ rule.graphRules, part.declared = ["O"] ∧
        (Rule.graph part).visibility true ofBea = .ok .denied := by
  have hcheck : (match compile mail with
      | .ok rule =>
        (match rule.visibility true ofBea with
          | .ok (.restricted _) => true
          | _ => false) &&
        decide (((rule.passing mailbox "Letter" ["l1"]).run {}).2.calls.length = 1) &&
        rule.graphRules.any (fun part => part.declared = ["O"])
      | .error _ => false) = true := by decide +kernel
  cases hrule : compile mail with
  | error flaw => simp [hrule] at hcheck
  | ok rule =>
      obtain ⟨hvisible, hgates, hgraph⟩ := variables_are_bound hrule ofBea
      simp only [hrule, Bool.and_eq_true, decide_eq_true_eq, List.any_eq_true] at hcheck
      obtain ⟨⟨hrestricted, hcalls⟩, part, hpart, hdeclared⟩ := hcheck
      split at hrestricted
      · next f hout =>
          refine ⟨rule, f, rfl, hout, hvisible true f hout, ?_, hcalls, part, hpart, hdeclared, ?_⟩
          · obtain ⟨made, hmade, hbound⟩ := ((hgates mailbox rfl).2 "Letter" ["l1"]).run {}
            intro call hcall
            exact hbound call (by simpa [hmade] using hcall)
          · have hunclaimed : ofBea.has "O" = false := by decide +kernel
            exact ((hgraph part (mem_graphRules_iff.1 hpart)).1 true).2
              ⟨"O", by simp [hdeclared], hunclaimed⟩
      · simp at hrestricted

end Rule

end GraphWarden
