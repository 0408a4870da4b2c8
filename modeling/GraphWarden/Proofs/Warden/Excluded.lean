import Mathlib.Algebra.Order.BigOperators.Group.List
import Mathlib.Data.Finset.Card
import GraphWarden.Proofs.Timeline.Course
import GraphWarden.Proofs.Warden.Rejected

/-!
# Counting excluded nodes

A write that is answered gets back some of the nodes that it names, each once
(`Client.fair_of_run`), so it names ids of three kinds: those that are returned, those that are
left out, and repeats of earlier ones.  The meter is told how many ids are named beyond those
that are returned, and these are the nodes that are left out **and the repeats**
(`AnsweredWrite.Fair.beyond_eq`).

Nothing else touches this count (`sameExcluded_of_no_write`), so along a run it grows by what
each answered write adds (`excluded_after`).  It therefore tells how many nodes were left out
exactly when no answered write names a node twice (`excluded_exact_iff`).
-/

namespace GraphWarden

/-! ### Writes that are answered -/

/-- A write that is to be authorized. -/
structure Write where
  request : Request
  op : Operation
  typeName : String
  /-- The ids of the nodes that it names. -/
  named : List String

/-- Authorizing a write. -/
def Write.act (x : Write) : Act (List String) :=
  Warden.authorizeWrite x.request x.op x.typeName x.named

/-- The write that is authorized for a demand.  Whether a node may be added is answered by
authorizing a write on the id that stands for it. -/
def Demand.write? : Demand → Option Write
  | authorizeWrite r op typeName ids => some ⟨r, op, typeName, ids⟩
  | authorizeAdd r typeName => some ⟨r, .add, typeName, [Warden.newNode]⟩
  | load _ | loadText _ | forget | claimsOfToken _ | authorizeQuery _ _
  | authorizePasswordCheck _ _ | query _ _ | evaluate _ _ _ _ => none

/-- The write that is authorized when something happens. -/
def Occurrence.write? : Occurrence → Option Write
  | demand d => d.write?
  | loadElsewhere _ | loadTextElsewhere _ => none

/-- A write that was answered: the ids that it names, and those that it got back. -/
structure AnsweredWrite where
  named : List String
  allowed : List String

namespace AnsweredWrite

/-- How many nodes are named and not returned. -/
def leftOut (x : AnsweredWrite) : Nat :=
  (x.named.toFinset \ x.allowed.toFinset).card

/-- How many ids repeat one that is named before. -/
def repeats (x : AnsweredWrite) : Nat :=
  x.named.length - x.named.toFinset.card

/-- How many ids are named beyond those that are returned. -/
def beyond (x : AnsweredWrite) : Nat :=
  x.named.length - x.allowed.length

/-- Only nodes that are named are returned, and each of them once. -/
structure Fair (x : AnsweredWrite) : Prop where
  nodup : x.allowed.Nodup
  subset : x.allowed ⊆ x.named

variable {x : AnsweredWrite}

/-- There are no repeats just when no id is named twice. -/
theorem repeats_eq_zero_iff : x.repeats = 0 ↔ x.named.Nodup := by
  have hle := x.named.toFinset_card_le
  have hall : x.named.toFinset.card = x.named.length ↔ x.named.Nodup :=
    Multiset.toFinset_card_eq_card_iff_nodup
  rw [← hall]
  unfold repeats
  omega

/-- The ids named beyond those that are returned are the nodes that are left out, and the
repeats. -/
theorem Fair.beyond_eq (h : x.Fair) : x.beyond = x.leftOut + x.repeats := by
  have hsubset : x.allowed.toFinset ⊆ x.named.toFinset := by
    intro id hid
    exact List.mem_toFinset.2 (h.subset (List.mem_toFinset.1 hid))
  have hallowed := List.toFinset_card_of_nodup h.nodup
  have hfewer := Finset.card_le_card hsubset
  have hle := x.named.toFinset_card_le
  unfold beyond leftOut repeats
  rw [Finset.card_sdiff_of_subset hsubset]
  omega

end AnsweredWrite

/-- What follows a job has the last word. -/
theorem Job.of_run_bind {α β : Type} {Q : Prop} {job : Job α} {next : α → Job β} {l : Line}
    {y : β} (h : ((job.bind next).run l).1 = .ok y)
    (hnext : ∀ x l, ((next x).run l).1 = .ok y → Q) : Q := by
  rw [Job.run_bind] at h
  generalize job.run l = done at h
  obtain ⟨result, l'⟩ := done
  cases result with
  | error problem => cases h
  | ok x => exact hnext x l' h

/-- A write that is answered gets back some of the nodes that it names, each once. -/
theorem Client.fair_of_run {c : Client} {s : Schema} {op : Operation} {typeName : String}
    {ids allowed : List String} {l : Line}
    (h : ((c.authorize s op typeName ids).run l).1 = .ok allowed) :
    (AnsweredWrite.mk ids allowed).Fair := by
  have hpicked : ∀ (passed : List String) (l : Line),
      ((Job.pure ((Names.distinct ids).filter passed.contains)).run l).1 = .ok allowed →
        (AnsweredWrite.mk ids allowed).Fair := by
    intro passed l hrun
    cases hrun
    refine ⟨(Names.distinct_nodup ids).filter _, fun id hid => ?_⟩
    exact Names.mem_distinct.1 (List.mem_filter.1 hid).1
  unfold authorize at h
  refine Job.of_run_bind h fun kind l hrun => ?_
  simp only at hrun
  split at hrun
  · cases hrun
    exact ⟨List.nodup_nil, List.nil_subset _⟩
  · split at hrun
    · refine Job.of_run_bind hrun fun allows l hrun => ?_
      split at hrun
      · exact Job.of_run_bind hrun hpicked
      · exact Job.of_run_bind hrun hpicked
    · split at hrun
      · exact Job.of_run_bind hrun hpicked
      · exact Job.of_run_bind hrun hpicked

/-! ### What is counted -/

namespace Warden

variable {w : Warden} {m : Meter} {o : Occurrence} {x : Write} {run : List Occurrence}

/-- As many nodes are counted as excluded, if they are counted. -/
def SameExcluded (w w' : Warden) : Prop :=
  w'.meter.map Meter.excluded = w.meter.map Meter.excluded

/-- Moving the line and remembering do not touch the count of excluded nodes.  Counting may, so it
is no part of this frame. -/
theorem frame_sameExcluded : Frame SameExcluded where
  refl _ := rfl
  trans h h' := Eq.trans h' h
  line _ _ := rfl
  memo _ _ := rfl
  count w change h := by
    have hsame : Meter.excluded ∘ change = Meter.excluded := funext h
    unfold SameExcluded
    rw [Option.map_map, hsame]

/-- Whatever happens that authorizes no write excludes no nodes. -/
theorem sameExcluded_of_no_write (h : o.write? = none) : w.SameExcluded (w.perform o.act).2 := by
  have hloads : ∀ compiled, o.compiled? = some compiled →
      w.SameExcluded (w.perform o.act).2 := by
    intro compiled hcompiled
    rcases perform_of_compiled (w := w) hcompiled with hperform | hperform
    · rw [hperform]
      cases compiled <;> rfl
    · rw [hperform]
      cases compiled <;> rfl
  cases o with
  | loadElsewhere definition => exact hloads _ rfl
  | loadTextElsewhere text => exact hloads _ rfl
  | demand d =>
      cases d with
      | load definition => exact hloads _ rfl
      | loadText text => exact hloads _ rfl
      | authorizeWrite _ _ _ _ | authorizeAdd _ _ => cases h
      | forget | claimsOfToken _ | authorizeQuery _ _ | authorizePasswordCheck _ _ | query _ _
      | evaluate _ _ _ _ => exact leaves_plain frame_sameExcluded rfl w

/-- What becomes of the warden is what the write makes of it. -/
theorem perform_of_write (h : o.write? = some x) :
    (w.perform o.act).2 = (w.perform x.act).2 := by
  cases o with
  | loadElsewhere _ | loadTextElsewhere _ => cases h
  | demand d =>
      have hserved : (w.perform (Occurrence.demand d).act).2 = w.serve d := perform_demand w d
      rw [hserved]
      cases d with
      | load _ | loadText _ | forget | claimsOfToken _ | authorizeQuery _ _
      | authorizePasswordCheck _ _ | query _ _ | evaluate _ _ _ _ => cases h
      | authorizeWrite r op typeName ids =>
          cases h
          rfl
      | authorizeAdd r typeName =>
          cases h
          show (w.perform (authorizeAdd r typeName)).2 = (w.perform (authorizeWrite _ _ _ _)).2
          unfold authorizeAdd
          rw [perform_bind]
          obtain ⟨result, after⟩ := w.perform (authorizeWrite r .add typeName [newNode])
          cases result with
          | error problem => rfl
          | ok allowed => rfl

/-- **A write that fails excludes no nodes; one that is answered** counts the ids that it names
beyond those that it gets back. -/
theorem perform_write_cases (w : Warden) (x : Write) :
    (∃ problem, (w.perform x.act).1 = .error problem ∧ w.SameExcluded (w.perform x.act).2) ∨
      ∃ allowed asked, (w.perform x.act).1 = .ok allowed ∧ w.SameExcluded asked ∧
        (w.perform x.act).2.meter = asked.meter.map fun m =>
          m.countWrite (AnsweredWrite.mk x.named allowed).beyond := by
  obtain ⟨r, op, typeName, ids⟩ := x
  have hasked := leaves_authorize frame_sameExcluded r op typeName ids w
  unfold Write.act authorizeWrite
  rw [perform_bind]
  generalize w.perform (counted do
    let s ← schema
    ask r fun c => c.authorize s op typeName ids) = done at hasked
  obtain ⟨result, asked⟩ := done
  cases result with
  | error problem => exact Or.inl ⟨problem, rfl, hasked⟩
  | ok allowed => exact Or.inr ⟨allowed, asked, rfl, hasked, rfl⟩

/-- A write that is answered returns only ids that it names, each once, whoever asks for it and
whatever the warden remembers. -/
theorem fair_of_perform {allowed : List String} (h : (w.perform x.act).1 = .ok allowed) :
    (AnsweredWrite.mk x.named allowed).Fair := by
  unfold Write.act at h
  cases hcurrent : w.catalog.current with
  | none =>
      unfold authorizeWrite at h
      rw [perform_then_count, perform_counted, perform_bind, perform_schema_none hcurrent] at h
      cases h
  | some s =>
      rw [perform_authorizeWrite hcurrent] at h
      exact Client.fair_of_run h

/-- The write that is answered when something happens. -/
def answeredWrite? (w : Warden) (o : Occurrence) : Option AnsweredWrite :=
  o.write?.bind fun x =>
    (w.perform x.act).1.toOption.map fun allowed => ⟨x.named, allowed⟩

/-- The writes that are answered along a run. -/
def answeredWrites (w : Warden) : List Occurrence → List AnsweredWrite
  | [] => []
  | o :: run => (w.answeredWrite? o).toList ++ (w.perform o.act).2.answeredWrites run

/-- Every occurrence that is an answered write returns only ids that it names, each once.  Nodes to
be added are included. -/
theorem fair_of_answeredWrite {a : AnsweredWrite} (h : w.answeredWrite? o = some a) : a.Fair := by
  obtain ⟨x, _, hanswered⟩ := Option.bind_eq_some_iff.1 h
  obtain ⟨allowed, hallowed, rfl⟩ := Option.map_eq_some_iff.1 hanswered
  exact fair_of_perform (toOption_eq_some_iff.1 hallowed)

/-- Every answered write of a run returns only ids that it names, each once. -/
theorem fair_of_mem_answeredWrites {a : AnsweredWrite} : ∀ {w : Warden},
    a ∈ w.answeredWrites run → a.Fair := by
  induction run with
  | nil => simp [answeredWrites]
  | cons o run ih =>
      intro w h
      rcases List.mem_append.1 h with hfirst | hlater
      · exact fair_of_answeredWrite (Option.mem_toList.1 hfirst)
      · exact ih hlater

/-- Whatever happens adds to the count what a write that is answered names beyond what it gets
back. -/
theorem excluded_step (hm : w.meter = some m) (hword : m.excluded ≤ Word.natMax)
    (o : Occurrence) : ∃ m', (w.perform o.act).2.meter = some m' ∧ m'.excluded =
      (m.excluded + ((w.answeredWrite? o).toList.map AnsweredWrite.beyond).sum) %
        (Word.natMax + 1) := by
  have hsame : ∀ {w' : Warden}, w.SameExcluded w' →
      ∃ m', w'.meter = some m' ∧ m'.excluded = m.excluded := by
    intro w' h
    have hcount : w'.meter.map Meter.excluded = some m.excluded := by
      rw [h, hm]
      rfl
    exact Option.map_eq_some_iff.1 hcount
  have hkept : m.excluded = (m.excluded + 0) % (Word.natMax + 1) :=
    (Nat.mod_eq_of_lt (Nat.lt_succ_of_le hword)).symm
  unfold answeredWrite?
  cases hwrite : o.write? with
  | none =>
      obtain ⟨m', hm', hexcluded⟩ := hsame (sameExcluded_of_no_write (w := w) hwrite)
      exact ⟨m', hm', hexcluded.trans hkept⟩
  | some x =>
      rw [perform_of_write hwrite, Option.bind_some]
      rcases perform_write_cases w x with ⟨problem, hfailed, hafter⟩ |
        ⟨allowed, asked, hallowed, hasked, hmeter⟩
      · obtain ⟨m', hm', hexcluded⟩ := hsame hafter
        rw [hfailed]
        exact ⟨m', hm', hexcluded.trans hkept⟩
      · obtain ⟨m', hm', hexcluded⟩ := hsame hasked
        rw [hallowed, hmeter, hm']
        refine ⟨_, rfl, ?_⟩
        rw [← hexcluded]
        rfl

/-- **Along a run** the count grows by what the answered writes name beyond what they get
back. -/
theorem excluded_after (run : List Occurrence) : ∀ {w : Warden} {m : Meter}, w.meter = some m →
    m.excluded ≤ Word.natMax → ∃ m', (w.after run).meter = some m' ∧ m'.excluded =
      (m.excluded + ((w.answeredWrites run).map AnsweredWrite.beyond).sum) %
        (Word.natMax + 1) := by
  induction run with
  | nil =>
      intro w m hm hword
      exact ⟨m, hm, (Nat.mod_eq_of_lt (Nat.lt_succ_of_le hword)).symm⟩
  | cons o run ih =>
      intro w m hm hword
      obtain ⟨m₁, hm₁, hfirst⟩ := excluded_step hm hword o
      have hword₁ : m₁.excluded ≤ Word.natMax := by
        rw [hfirst]
        exact Nat.le_of_lt_succ (Nat.mod_lt _ (Nat.succ_pos _))
      obtain ⟨m', hm', hlater⟩ := ih hm₁ hword₁
      refine ⟨m', hm', ?_⟩
      rw [hlater, hfirst, Nat.mod_add_mod, answeredWrites, List.map_append, List.sum_append,
        Nat.add_assoc]

/-- How many nodes the writes of a run leave out. -/
def leftOut (w : Warden) (run : List Occurrence) : Nat :=
  ((w.answeredWrites run).map AnsweredWrite.leftOut).sum

/-- How many ids the answered writes of a run repeat. -/
def repeats (w : Warden) (run : List Occurrence) : Nat :=
  ((w.answeredWrites run).map AnsweredWrite.repeats).sum

/-- The ids that a run names beyond those that are returned are the nodes left out and the repeats.
-/
theorem sum_beyond (w : Warden) (run : List Occurrence) :
    ((w.answeredWrites run).map AnsweredWrite.beyond).sum = w.leftOut run + w.repeats run := by
  have hbeyond : (w.answeredWrites run).map AnsweredWrite.beyond =
      (w.answeredWrites run).map fun a => a.leftOut + a.repeats :=
    List.map_congr_left fun a ha => (fair_of_mem_answeredWrites ha).beyond_eq
  rw [hbeyond, List.sum_map_add]
  rfl

/-- A run has no repeats just when none of its answered writes names a node twice. -/
theorem repeats_eq_zero_iff (w : Warden) (run : List Occurrence) :
    w.repeats run = 0 ↔ ∀ a ∈ w.answeredWrites run, a.named.Nodup := by
  unfold repeats
  rw [List.sum_eq_zero_iff]
  constructor
  · intro h a ha
    exact AnsweredWrite.repeats_eq_zero_iff.1 (h _ (List.mem_map_of_mem ha))
  · intro h n hn
    obtain ⟨a, ha, rfl⟩ := List.mem_map.1 hn
    exact AnsweredWrite.repeats_eq_zero_iff.2 (h a ha)

/-- **The count of excluded nodes takes repeats for nodes.**  After every run of a warden that
counts, it has grown by the number of nodes that the answered writes left out and by the number
of ids that they repeat; those that adding a node asks for are writes as well.  While the count
is a word it has therefore grown by the number of nodes left out exactly when no answered write
names a node twice. -/
theorem excluded_exact_iff (hm : w.meter = some m) (hword : m.excluded ≤ Word.natMax)
    (run : List Occurrence) : ∃ m', (w.after run).meter = some m' ∧
      m'.excluded = (m.excluded + (w.leftOut run + w.repeats run)) % (Word.natMax + 1) ∧
      (m.excluded + (w.leftOut run + w.repeats run) ≤ Word.natMax →
        (m'.excluded = m.excluded + w.leftOut run ↔
          ∀ a ∈ w.answeredWrites run, a.named.Nodup)) := by
  obtain ⟨m', hm', hexcluded⟩ := excluded_after run hm hword
  rw [sum_beyond] at hexcluded
  refine ⟨m', hm', hexcluded, fun htotal => ?_⟩
  have hexact : m'.excluded = m.excluded + (w.leftOut run + w.repeats run) :=
    hexcluded.trans (Nat.mod_eq_of_lt (Nat.lt_succ_of_le htotal))
  rw [← repeats_eq_zero_iff, hexact]
  omega

/-- Notes may be deleted by those who own them, and changed by everybody. -/
def ownersDelete : SchemaDefinition where
  types := [TypeDefinition.withRule { name := "Note", kind := .object } .delete
    (.rule "query($USER: String) \x7b queryNote(filter: \x7b owner: \x7b eq: $USER \x7d \x7d) \x7b id \x7d \x7d")]

/-- A warden that counts, over two notes. -/
def clippings : Warden where
  catalog := (Catalog.empty.load ownersDelete).2
  store := { graph := .ofList [
    ⟨"n1", "Note", [], .ofList [("owner", .scalar (.text "bea"))]⟩,
    ⟨"n2", "Note", [], .ofList [("owner", .scalar (.text "amit"))]⟩] }
  meter := some {}

/-- One note is changed, and is named twice. -/
def stammer : List Occurrence :=
  [.demand (.authorizeWrite {} .update "Note" ["n1", "n1"])]

/-- A repeat is counted, though no node was left out. -/
theorem clippings_counts_repeat :
    (clippings.after stammer).meter.map Meter.excluded = some 1 ∧
      clippings.leftOut stammer = 0 ∧ clippings.repeats stammer = 1 := by
  decide +kernel

/-- Amit names three ids and deletes the note that is his, and a request without claims deletes
none.  All others fail, or leave nothing out. -/
def tidying : List Occurrence :=
  [.demand (.authorizeWrite { claims := Claims.none.claiming "USER" (.text "amit") } .delete
      "Note" ["n1", "n2", "n3"]),
    .demand (.authorizeAdd {} "Note"),
    .demand (.authorizeWrite {} .query "Note" ["n1", "n1"]),
    .demand (.query {} { typeName := "Note" }),
    .loadTextElsewhere "type",
    .demand (.authorizeWrite {} .delete "Note" ["n1"])]

/-- Three nodes are left out and counted: two of those that amit names, and the one that is named
without claims. -/
theorem clippings_counts_exactly :
    ∃ m', (clippings.after tidying).meter = some m' ∧ m'.excluded = 3 ∧
      clippings.leftOut tidying = 3 := by
  obtain ⟨m', hm', _, hexact⟩ :=
    excluded_exact_iff (w := clippings) (m := {}) rfl (by decide) tidying
  have hleft : clippings.leftOut tidying = 3 := by decide +kernel
  have hnodup : ∀ a ∈ clippings.answeredWrites tidying, a.named.Nodup := by
    rw [← repeats_eq_zero_iff]
    decide +kernel
  have hword : ({} : Meter).excluded + (clippings.leftOut tidying + clippings.repeats tidying) ≤
      Word.natMax := by
    rw [hleft, (repeats_eq_zero_iff _ _).2 hnodup]
    decide
  have hcount := (hexact hword).2 hnodup
  rw [hleft] at hcount
  exact ⟨m', hm', hcount, hleft⟩

end Warden

end GraphWarden
