import GraphWarden.Rule.Text
import GraphWarden.Proofs.Graphql.Words
import GraphWarden.Proofs.Graphql.Written
import GraphWarden.Proofs.Store.Shown

/-!
# Role rules as they are written

A role rule names a claim between a dollar sign and a colon (`RoleText`), in one way only
(`RoleText.eq_of_chars_eq`).  What stands behind the colon is pasted into a query as the argument
of a field, and the first argument of that query is what is read (`Rule.exists_of_literal`).

Nothing checks that the pasted text ends where its literal does.  It may go on with further
arguments, or close the round brackets itself and go on with anything; and of an operator that an
object names twice the last entry counts.  **A text is one whole condition exactly when it has
none of this** (`Rule.whole_iff_nothing_dropped`), and otherwise a part of it is dropped.
-/

namespace GraphWarden

namespace Text

/-- Trimming takes blanks off both sides. -/
theorem exists_of_trim (cs : List Char) :
    ∃ before after, cs = before ++ trim cs ++ after ∧ (∀ c ∈ before, isBlank c = true) ∧
      ∀ c ∈ after, isBlank c = true := by
  refine ⟨cs.takeWhile isBlank, ((trimStart cs).reverse.takeWhile isBlank).reverse, ?_, ?_, ?_⟩
  · have hend : trim cs ++ ((trimStart cs).reverse.takeWhile isBlank).reverse = trimStart cs := by
      rw [trim, trimEnd, ← List.reverse_append, List.takeWhile_append_dropWhile,
        List.reverse_reverse]
    rw [List.append_assoc, hend, trimStart, List.takeWhile_append_dropWhile]
  · intro c hc
    exact List.mem_takeWhile_imp hc
  · intro c hc
    exact List.mem_takeWhile_imp (List.mem_reverse.1 hc)

/-- Blanks at the end of a text play no part when it is trimmed. -/
theorem trim_append_of_blank (cs : List Char) {after : List Char}
    (h : ∀ c ∈ after, isBlank c = true) : trim (cs ++ after) = trim cs := by
  have hreverse : ∀ c ∈ after.reverse, isBlank c = true :=
    fun c hc => h c (List.mem_reverse.1 hc)
  rw [trim, trim, trimStart, List.dropWhile_append]
  split
  · next hempty =>
    rw [trimStart, List.isEmpty_iff.1 hempty, List.dropWhile_eq_nil_iff.2 h]
  · rw [trimStart, trimEnd, List.reverse_append, List.dropWhile_append_of_pos hreverse, trimEnd]

/-- Trimming at the end stops at a character that is no blank, so it does not reach what stands in
front of one. -/
theorem trimEnd_cons {c : Char} (hc : isBlank c = false) (cs : List Char) :
    trimEnd (c :: cs) = c :: trimEnd cs := by
  rw [trimEnd, trimEnd, List.reverse_cons, List.dropWhile_append]
  split
  · next hempty => simp [hc, List.isEmpty_iff.1 hempty]
  · simp

end Text

/-- The characters of a claim's name: it runs up to a colon or a blank. -/
def isClaimPart (c : Char) : Bool :=
  !(c = ':' || Text.isBlank c)

/-- A text is cut in one way at the first character that does not have a property. -/
theorem append_cons_inj_of_forall {p : Char → Bool} {xs xs' ys ys' : List Char} {x : Char}
    (h : ∀ c ∈ xs, p c = true) (h' : ∀ c ∈ xs', p c = true) (hx : p x = false)
    (heq : xs ++ x :: ys = xs' ++ x :: ys') : xs = xs' ∧ ys = ys' := by
  have hfront := congrArg (List.takeWhile p) heq
  rw [List.takeWhile_append_of_pos h, List.takeWhile_append_of_pos h'] at hfront
  obtain rfl : xs = xs' := by simpa [hx] using hfront
  simpa using heq

/-- A text in the form of a role rule: in braces, a dollar sign with the name of a claim, a colon,
and what is asked of the claim.  Blanks may stand around each of these. -/
structure RoleText where
  lead : List Char
  claim : List Char
  gap : List Char
  body : List Char
  lead_blank : ∀ c ∈ lead, Text.isBlank c = true
  claim_ne_nil : claim ≠ []
  claim_named : ∀ c ∈ claim, isClaimPart c = true
  gap_blank : ∀ c ∈ gap, Text.isBlank c = true

namespace RoleText

/-- The text itself. -/
def chars (t : RoleText) : List Char :=
  '{' :: (t.lead ++ '$' :: (t.claim ++ t.gap ++ ':' :: (t.body ++ ['}'])))

/-- A text has this form in one way at most.  The dollar sign ends what leads, and the first colon
behind it ends the name and the gap, neither of which has a colon. -/
theorem eq_of_chars_eq {t t' : RoleText} (h : t.chars = t'.chars) :
    t.claim = t'.claim ∧ t.body = t'.body := by
  have hinner : t.lead ++ '$' :: (t.claim ++ t.gap ++ ':' :: (t.body ++ ['}'])) =
      t'.lead ++ '$' :: (t'.claim ++ t'.gap ++ ':' :: (t'.body ++ ['}'])) := by
    simpa [chars] using h
  obtain ⟨_, hnamed⟩ := append_cons_inj_of_forall t.lead_blank t'.lead_blank (by decide) hinner
  have hplain : ∀ t : RoleText, ∀ c ∈ t.claim ++ t.gap, (c != ':') = true := by
    intro t c hc
    rcases List.mem_append.1 hc with hc | hc
    · have hpart := t.claim_named c hc
      rw [bne_iff_ne]
      rintro rfl
      exact absurd hpart (by decide)
    · have hblank := t.gap_blank c hc
      rw [bne_iff_ne]
      rintro rfl
      exact absurd hblank (by decide)
  obtain ⟨hclaim, hbody⟩ :=
    append_cons_inj_of_forall (hplain t) (hplain t') (by decide) hnamed
  refine ⟨?_, List.append_cancel_right hbody⟩
  have hname : ∀ t : RoleText,
      (t.claim ++ t.gap).takeWhile (fun c => !Text.isBlank c) = t.claim := by
    intro t
    have hgap : t.gap.takeWhile (fun c => !Text.isBlank c) = [] := by
      cases hgap : t.gap with
      | nil => rfl
      | cons c more =>
          have hblank := t.gap_blank c (by simp [hgap])
          simp [hblank]
    rw [List.takeWhile_append_of_pos, hgap, List.append_nil]
    intro c hc
    have hpart := t.claim_named c hc
    simp only [isClaimPart, Bool.not_or, Bool.and_eq_true] at hpart
    exact hpart.2
  rw [← hname t, ← hname t', hclaim]

end RoleText

namespace Rule

open Graphql

/-- The words in front of the text that is read as an argument. -/
def argumentLead : List Token :=
  [.opening .curly, .name "literal", .opening .round, .name "value", .mark ':']

/-- The text that is pasted in front of a condition is read as the start of a query with one
argument, whatever comes behind it. -/
theorem tokens?_argumentLead (cs : List Char) :
    tokens? ("\x7b literal(value: ".toList ++ cs) = (tokens? cs).map (argumentLead ++ ·) := by
  have hcolon : tokens? (": ".toList ++ cs) = (tokens? (' ' :: cs)).map (.mark ':' :: ·) :=
    tokens?_of_word rfl rfl (by decide)
  have hvalue : tokens? ("value: ".toList ++ cs) =
      (tokens? (": ".toList ++ cs)).map (.name "value" :: ·) :=
    tokens?_of_word rfl rfl (by decide)
  have hround : tokens? ("(value: ".toList ++ cs) =
      (tokens? ("value: ".toList ++ cs)).map (.opening .round :: ·) :=
    tokens?_of_word rfl rfl (by decide)
  have hliteral : tokens? ("literal(value: ".toList ++ cs) =
      (tokens? ("(value: ".toList ++ cs)).map (.name "literal" :: ·) :=
    tokens?_of_word rfl rfl (by decide)
  have hblank : tokens? (" literal(value: ".toList ++ cs) =
      tokens? ("literal(value: ".toList ++ cs) := tokens?_of_ignored rfl _
  have hcurly : tokens? ("\x7b literal(value: ".toList ++ cs) =
      (tokens? (" literal(value: ".toList ++ cs)).map (.opening .curly :: ·) :=
    tokens?_of_word rfl rfl (by decide)
  rw [hcurly, hblank, hliteral, hround, hvalue, hcolon, tokens?_of_ignored rfl]
  simp only [Option.map_map]
  rfl

/-- The text that is pasted behind a condition closes what was opened in front, and no token goes
on into it. -/
theorem isEnd_argumentEnd : IsEnd ") \x7d".toList where
  closes := ⟨" \x7d".toList, rfl⟩
  unquoted := by decide
  undotted := by decide
  oneLine := by simp

theorem tokens?_argumentEnd :
    tokens? ") \x7d".toList = some [.closing .round, .closing .curly] := rfl

/-- When a list of things was read, the first of them was read first. -/
theorem exists_of_everyOne_cons {α : Type} {item : Reads α} {ts : List Tree} {x : α} {xs : List α}
    (h : everyOne item ts = some (x :: xs)) : ∃ rest, item ts = some (x, rest) := by
  cases ts with
  | nil => simp [everyOne] at h
  | cons t ts =>
      rw [everyOne, every, List.length_cons, everyWithin] at h
      obtain ⟨⟨y, rest⟩, hitem, h⟩ := Option.bind_eq_some_iff.1 h
      obtain ⟨ys, _, h⟩ := Option.bind_eq_some_iff.1 h
      obtain ⟨rfl, rfl⟩ := by simpa using h
      exact ⟨rest, hitem⟩

/-- The arguments of a field stand in round brackets behind its name. -/
theorem entries?_of_selected? {depth : Nat} {name key : String} {args items rest : List Tree}
    {es : List (String × Value)} {below : List Selected}
    (h : selected? depth (.leaf (.name name) :: .group .round args :: items) =
      some (.field key es below, rest)) : entries? args = some es := by
  cases depth with
  | zero => simp [selected?] at h
  | succ depth =>
      rw [selected?] at h
      · obtain ⟨⟨es', ts⟩, harguments, h⟩ := Option.bind_eq_some_iff.1 h
        obtain ⟨_, _, h⟩ := Option.bind_eq_some_iff.1 h
        obtain ⟨_, _, h⟩ := Option.bind_eq_some_iff.1 h
        obtain ⟨⟨_, rfl, _⟩, _⟩ := by simpa using h
        rw [arguments?] at harguments
        split at harguments
        · simp at harguments
        · obtain ⟨es'', hentries, hsame⟩ := Option.map_eq_some_iff.1 harguments
          obtain ⟨rfl, _⟩ := by simpa using hsame
          exact hentries
      · simp

/-- The first field of a document in braces. -/
theorem exists_of_definition? {items more rest : List Tree} {declared : List String}
    {selection : Selected} {selections : List Selected}
    (h : definition? (.group .curly items :: more) =
      some (.query declared (selection :: selections), rest)) :
    ∃ rest', selected? nestingLimit items = some (selection, rest') := by
  rw [definition?] at h
  · obtain ⟨⟨read, rest'⟩, hset, hsame⟩ := Option.map_eq_some_iff.1 h
    obtain ⟨⟨_, rfl⟩, rfl⟩ := by simpa using hsame
    rw [selectionSet?] at hset
    obtain ⟨read, hread, hsame⟩ := Option.map_eq_some_iff.1 hset
    obtain ⟨rfl, _⟩ := by simpa using hsame
    exact exists_of_everyOne_cons hread
  · simp
  · simp

/-- Words that are cut at the end of a round bracket are cut behind those in it. -/
theorem exists_of_append_closing_eq {inside front ws zs : List Token}
    (hinside : .closing .round ∉ inside)
    (h : inside ++ .closing .round :: ws = front ++ .closing .round :: zs) :
    ∃ rest, front = inside ++ rest ∧ (rest = [] ∨ ∃ r, rest = .closing .round :: r) := by
  rcases List.append_eq_append_iff.1 h with ⟨rest, rfl, hrest⟩ | ⟨more, hmore, hrest⟩
  · refine ⟨rest, rfl, ?_⟩
    cases rest with
    | nil => exact Or.inl rfl
    | cons t rest =>
        obtain ⟨rfl, _⟩ := List.cons.inj hrest
        exact Or.inr ⟨rest, rfl⟩
  · cases more with
    | nil => exact ⟨[], by simpa using hmore.symm, Or.inl rfl⟩
    | cons t more =>
        obtain ⟨rfl, _⟩ := List.cons.inj hrest
        exact absurd (by simp [hmore]) hinside

/-- The entries of the argument list that a text is pasted into, and what follows them. -/
theorem exists_of_document? {body : List Char} {declared : List String} {name : String}
    {es : List (String × Value)} {below selections : List Selected} {others : List Definition}
    (h : document? ("\x7b literal(value: " ++ String.ofList body ++ ") \x7d") =
      some (.query declared (.field name es below :: selections) :: others)) :
    ∃ args after, tokens? (body ++ ") \x7d".toList) =
        some (wordsOf args ++ .closing .round :: after) ∧
      entries? (.leaf (.name "value") :: .leaf (.mark ':') :: args) = some es := by
  obtain ⟨trees, hread, hdefinitions⟩ := Option.bind_eq_some_iff.1 h
  obtain ⟨tokens, htokens, hforest⟩ := Option.bind_eq_some_iff.1 hread
  have hpasted : ("\x7b literal(value: " ++ String.ofList body ++ ") \x7d").toList =
      "\x7b literal(value: ".toList ++ (body ++ ") \x7d".toList) := by simp
  rw [hpasted, tokens?_argumentLead] at htokens
  obtain ⟨words, hwords, rfl⟩ := Option.map_eq_some_iff.1 htokens
  -- the brackets that are open where the text begins
  have hopen : forestFrom [(.round, [.leaf (.name "literal")]), (.curly, [])]
      [.leaf (.mark ':'), .leaf (.name "value")] words = some trees := by
    simpa [forest?, argumentLead, forestFrom, nestingLimit] using hforest
  obtain ⟨args, after, rfl, hround⟩ := exists_of_forestFrom hopen
  obtain ⟨items, after', rfl, hcurly⟩ := exists_of_forestFrom hround
  obtain ⟨more, rfl, rfl⟩ := wordsOf_of_forestFrom hcurly
  obtain ⟨rest, hdefinition⟩ := exists_of_everyOne_cons hdefinitions
  obtain ⟨rest', hselected⟩ := exists_of_definition? hdefinition
  exact ⟨args, _, hwords, entries?_of_selected? hselected⟩

/-- What is read as an argument begins with the words of the literal that is read.  Further
arguments may follow it, and the end of the round brackets with anything behind it. -/
theorem exists_of_literal {body : List Char} {v : Value} (h : literal body = .ok v) :
    ∃ (l : Literal) (others : List (String × Literal)) (rest : List Token),
      tokens? body = some (l.words ++ (wordsOf (Literal.entryTrees others) ++ rest)) ∧
      (rest = [] ∨ ∃ r, rest = .closing .round :: r) ∧ l.value = v := by
  unfold literal at h
  split at h
  · next hdocument =>
    obtain rfl := Except.ok.inj h
    obtain ⟨args, after, hwords, hentries⟩ := exists_of_document? hdocument
    obtain ⟨written, htrees, hvalues⟩ := exists_of_entries? hentries
    cases written with
    | nil => simp [Literal.entryValues] at hvalues
    | cons e others =>
        obtain ⟨key, l⟩ := e
        simp only [Literal.entryValues, List.cons.injEq, Prod.mk.injEq] at hvalues
        obtain ⟨⟨_, rfl⟩, _⟩ := hvalues
        obtain ⟨_, rfl⟩ : key = "value" ∧ args = l.trees ++ Literal.entryTrees others := by
          simpa [Literal.entryTrees, eq_comm] using htrees
        obtain ⟨front, hfront, hcases⟩ := isEnd_argumentEnd.tokens?_append hwords
        rw [wordsOf_append] at hcases
        have hinside : .closing .round ∉
            wordsOf l.trees ++ wordsOf (Literal.entryTrees others) := by
          rw [List.mem_append]
          rintro (hin | hin)
          · exact l.closing_round_notMem_words hin
          · exact Literal.closing_round_notMem_entryTrees others hin
        rcases hcases with rfl | ⟨behind, hend, hsplit⟩
        · exact ⟨l, others, _, hfront.trans (by rw [List.append_assoc]; rfl), Or.inr ⟨_, rfl⟩, rfl⟩
        · rw [tokens?_argumentEnd] at hend
          obtain rfl := Option.some.inj hend
          obtain ⟨rest, rfl, hrest⟩ := exists_of_append_closing_eq hinside hsplit
          exact ⟨l, others, rest, hfront.trans (by rw [List.append_assoc]; rfl), hrest, rfl⟩
  · simp at h

/-! ### The form of a role rule -/

/-- Behind the brace of a role rule stands a dollar sign. -/
theorem exists_of_isRoleText {inner : List Char}
    (h : isRoleText ('{' :: (inner ++ ['}'])) = true) : ∃ more, Text.trim inner = '$' :: more := by
  rw [isRoleText, Text.trimStart, List.dropWhile_append] at h
  split at h
  · exact absurd h (by decide)
  · next hne =>
    cases hstart : inner.dropWhile Text.isBlank with
    | nil => exact absurd (by simp [hstart]) hne
    | cons c rest =>
        obtain rfl : c = '$' := by simpa [hstart] using h
        refine ⟨Text.trimEnd rest, ?_⟩
        rw [Text.trim, Text.trimStart, hstart, Text.trimEnd_cons (by decide)]

/-- What stands behind the dollar sign has the form of a role rule: a name, blanks that may be
there, a colon and a body. -/
theorem exists_roleText {lead named body after : List Char}
    (hlead : ∀ c ∈ lead, Text.isBlank c = true) (hafter : ∀ c ∈ after, Text.isBlank c = true)
    (hclaim : ¬ (String.ofList (named.takeWhile isClaimPart)).isEmpty = true)
    (hcolon : Text.trimStart (named.dropWhile isClaimPart) = ':' :: body) :
    ∃ t : RoleText, t.chars = '{' :: (lead ++ '$' :: named ++ after ++ ['}']) ∧
      t.claim = named.takeWhile isClaimPart ∧ Text.trim t.body = Text.trim body := by
  have hrest : named.dropWhile isClaimPart =
      (named.dropWhile isClaimPart).takeWhile Text.isBlank ++ ':' :: body := by
    rw [← hcolon, Text.trimStart, List.takeWhile_append_dropWhile]
  have hnamed : named.takeWhile isClaimPart ++
      ((named.dropWhile isClaimPart).takeWhile Text.isBlank ++ ':' :: body) = named := by
    rw [← hrest, List.takeWhile_append_dropWhile]
  refine ⟨⟨lead, named.takeWhile isClaimPart, (named.dropWhile isClaimPart).takeWhile Text.isBlank,
    body ++ after, hlead, ?_, ?_, ?_⟩, ?_, rfl, Text.trim_append_of_blank body hafter⟩
  · intro hnil
    rw [hnil] at hclaim
    exact hclaim rfl
  · intro c hc
    exact List.mem_takeWhile_imp hc
  · intro c hc
    exact List.mem_takeWhile_imp hc
  · have hwhole : named ++ after = named.takeWhile isClaimPart ++
        (named.dropWhile isClaimPart).takeWhile Text.isBlank ++ ':' :: (body ++ after) := by
      rw [← List.cons_append, ← List.append_assoc, List.append_assoc _ _ (':' :: body), hnamed]
    rw [RoleText.chars]
    simp only [List.append_assoc, List.cons_append] at hwhole ⊢
    rw [← List.append_assoc named, hwhole]
    simp

/-- A role rule that is read was written as one: with a claim, and with a body that is read as an
object of one operator. -/
theorem exists_of_roleOfText {cs : List Char} {rule : RoleRule} (hrole : isRoleText cs = true)
    (h : roleOfText cs = .ok rule) :
    ∃ t : RoleText, t.chars = cs ∧ rule.claim = String.ofList t.claim ∧
      ∃ operator v, literal (Text.trim t.body) = .ok (.object [(operator, v)]) ∧
        roleTest operator v = .ok rule.test := by
  unfold roleOfText at h
  split at h
  · next inner hhead hinner =>
    obtain ⟨rest, rfl⟩ := List.head?_eq_some_iff.1 hhead
    obtain rfl := Text.before?_eq_some_iff.1 (by simpa using hinner)
    obtain ⟨named, hnamed⟩ := exists_of_isRoleText hrole
    obtain ⟨lead, after, hsides, hlead, hafter⟩ := Text.exists_of_trim inner
    simp only [hnamed, List.drop_succ_cons, List.drop_zero] at h
    split at h
    · simp at h
    · next hclaim =>
      split at h
      · next body hcolon =>
        obtain ⟨v, hliteral, h⟩ := exists_of_bind_eq_ok h
        split at h
        · next operator v =>
          obtain ⟨test, htest, rfl⟩ := exists_of_map_eq_ok h
          obtain ⟨t, ht, hname, hbody⟩ := exists_roleText hlead hafter hclaim hcolon
          refine ⟨t, ?_, (congrArg String.ofList hname).symm, operator, v, ?_, htest⟩
          · rw [ht, ← hnamed, ← hsides]
          · rw [hbody]
            exact hliteral
        · simp at h
        · simp at h
      · simp at h
  · simp at h

/-! ### Whole conditions -/

/-- The test that an operator makes of a literal. -/
inductive Writes : String → Literal → RoleTest → Prop where
  | equal {l : Literal} : l.value.occurrences = [] → Writes "eq" l (.equal l.value)
  | oneOf {ls : List Literal} : (Literal.list ls).value.occurrences = [] →
      Writes "in" (.list ls) (.oneOf (Literal.values ls))
  | matching {l : Literal} {source : String} {pattern : Pattern} : l.value.asText = some source →
      Pattern.ofSource? source = .ok pattern → Writes "regexp" l (.matching pattern)

/-- What a test asks is what its literal writes under the operator.  Which literals there may be
depends on the operator: any constant for equality, a list for membership, and a text for a
pattern. -/
theorem writes_of_roleTest {operator : String} {l : Literal} {test : RoleTest}
    (h : roleTest operator l.value = .ok test) : Writes operator l test := by
  unfold roleTest at h
  split at h
  · simp at h
  · next hconstant =>
    have hnone : l.value.occurrences = [] := by simpa using hconstant
    split at h
    · next heq =>
      obtain rfl := Except.ok.inj h
      exact heq ▸ .equal hnone
    · split at h
      · next hin =>
        subst hin
        cases l with
        | list ls =>
            obtain rfl := Except.ok.inj h
            exact .oneOf hnone
        | word w =>
            split at h
            · next heq => exact absurd heq (w.value_ne_bracketed.1 _)
            · simp at h
        | «variable» name => simp [Literal.value] at h
        | object es => simp [Literal.value] at h
      · split at h
        · next hregexp =>
          subst hregexp
          split at h
          · simp at h
          · next source hsource =>
            obtain ⟨pattern, hpattern, rfl⟩ := exists_of_map_eq_ok h
            refine .matching hsource ?_
            cases hread : Pattern.ofSource? source with
            | error cause => simp [hread, Except.mapError] at hpattern
            | ok pattern' => simpa [hread, Except.mapError] using hpattern
        · simp at h

/-- Entries that are written with no word are no entries. -/
theorem eq_nil_of_wordsOf_entryTrees {es : List (String × Literal)}
    (h : wordsOf (Literal.entryTrees es) = []) : es = [] := by
  cases es with
  | nil => rfl
  | cons e es => simp [Literal.entryTrees, wordsOf, Tree.words] at h

/-- The text is one whole condition: a claim, and an object with one operator and its literal, and
nothing else. -/
def IsWhole (cs : List Char) (rule : RoleRule) : Prop :=
  ∃ (t : RoleText) (operator : String) (l : Literal), t.chars = cs ∧
    rule.claim = String.ofList t.claim ∧
    tokens? (Text.trim t.body) = some (Literal.object [(operator, l)]).words ∧
    Writes operator l rule.test

/-- **What a text that is accepted as a role rule holds.**  It has the form of a role rule, and
what is asked of the claim begins with an object of entries for one operator, the last of which
makes the test.  Whatever else is written counts for nothing: earlier entries of the object,
further arguments behind it, and everything from the end of the round brackets on.  So **the text
is one whole condition exactly when nothing of this is written**. -/
theorem whole_iff_nothing_dropped {s : String} {rule : RoleRule}
    (h : ofText s = .ok (.role rule)) :
    ∃ (t : RoleText) (entries : List (String × Literal)) (operator : String) (last : Literal)
      (others : List (String × Literal)) (rest : List Token),
      t.chars = Text.trim s.toList ∧ rule.claim = String.ofList t.claim ∧
      tokens? (Text.trim t.body) = some ((Literal.object entries).words ++
        (wordsOf (Literal.entryTrees others) ++ rest)) ∧
      (rest = [] ∨ ∃ r, rest = .closing .round :: r) ∧
      (∀ e ∈ entries, e.1 = operator) ∧ entries.getLast? = some (operator, last) ∧
      Writes operator last rule.test ∧
      (IsWhole (Text.trim s.toList) rule ↔ entries.length = 1 ∧ others = [] ∧ rest = []) := by
  unfold ofText at h
  simp only at h
  split at h
  · simp at h
  · split at h
    · next hrole =>
      obtain ⟨_, hread, hsame⟩ := exists_of_map_eq_ok h
      cases hsame
      obtain ⟨t, ht, hclaim, operator, v, hliteral, htest⟩ := exists_of_roleOfText hrole hread
      obtain ⟨l, others, rest, hwords, hrest, hvalue⟩ := exists_of_literal hliteral
      obtain ⟨entries, last, rfl, hlast, hsame, rfl⟩ := Literal.exists_of_value_eq_object hvalue
      refine ⟨t, entries, operator, last, others, rest, ht, hclaim, hwords, hrest, hsame, hlast,
        writes_of_roleTest htest, ?_⟩
      constructor
      · rintro ⟨t', operator', l', ht', _, hwords', _⟩
        obtain ⟨_, hbody⟩ := RoleText.eq_of_chars_eq (ht'.trans ht.symm)
        rw [hbody, hwords] at hwords'
        obtain ⟨hentries, hnone⟩ := Literal.words_append_inj _ _ _ []
          ((Option.some.inj hwords').trans (List.append_nil _).symm)
        obtain ⟨hothers, hrest⟩ := List.append_eq_nil_iff.1 hnone
        cases hentries
        exact ⟨rfl, eq_nil_of_wordsOf_entryTrees hothers, hrest⟩
      · rintro ⟨hone, rfl, rfl⟩
        obtain ⟨e, rfl⟩ := List.length_eq_one_iff.1 hone
        obtain rfl := by simpa using hlast
        exact ⟨t, operator, last, ht, hclaim, by simpa [Literal.entryTrees, wordsOf] using hwords,
          writes_of_roleTest htest⟩
    · obtain ⟨_, _, hgraph⟩ := exists_of_map_eq_ok h
      simp at hgraph

/-- Whether a rule compares a claim. -/
def isRole : Rule → Bool
  | .role _ => true
  | .graph _ | .combine _ _ => false

/-- A rule that is known to be a role rule when it is read is there, and is one. -/
theorem exists_role_of_any {x : Except Flaw Rule} (h : x.toOption.any isRole = true) :
    ∃ rule, x = .ok (.role rule) := by
  obtain ⟨rule, hrule, h⟩ := (Option.any_eq_true _ _).1 h
  rw [toOption_eq_some_iff] at hrule
  cases rule with
  | role rule => exact ⟨rule, hrule⟩
  | graph rule => simp [isRole] at h
  | combine op rules => simp [isRole] at h

/-- Two conditions in one text, with a comma between them. -/
def adminNamed : RoleText where
  lead := [' ']
  claim := "ROLE".toList
  gap := []
  body := " \x7b eq: \"ADMIN\" \x7d, name: \x7b eq: \"amy\" \x7d ".toList
  lead_blank := by simp [Text.isBlank]
  claim_ne_nil := by simp
  claim_named := by simp [isClaimPart, Text.isBlank]
  gap_blank := by simp

/-- The body of the example starts with a whole condition and goes on with a further argument. -/
theorem tokens?_adminNamed : ∃ more, tokens? (Text.trim adminNamed.body) =
    some ((Literal.object [("eq", .word ⟨.text "ADMIN", .text "ADMIN", rfl⟩)]).words ++
      .name "name" :: more) :=
  ⟨[.mark ':', .opening .curly, .name "eq", .mark ':', .text "amy", .closing .curly], rfl⟩

/-- Of two conditions the second is dropped. -/
theorem adminNamed_not_whole :
    ∃ rule, ofText (String.ofList adminNamed.chars) = .ok (.role rule) ∧
      ¬ IsWhole adminNamed.chars rule := by
  obtain ⟨rule, hrule⟩ := exists_role_of_any
    (show (ofText (String.ofList adminNamed.chars)).toOption.any isRole = true by decide +kernel)
  refine ⟨rule, hrule, ?_⟩
  rintro ⟨t, operator, l, ht, _, hwords, _⟩
  obtain ⟨_, hbody⟩ := RoleText.eq_of_chars_eq ht
  obtain ⟨more, htokens⟩ := tokens?_adminNamed
  rw [hbody, htokens] at hwords
  obtain ⟨_, hmore⟩ := Literal.words_append_inj _ _ _ []
    ((Option.some.inj hwords).trans (List.append_nil _).symm)
  simp at hmore

/-- One condition, and nothing else. -/
def adminOrClerk : RoleText where
  lead := [' ']
  claim := "ROLE".toList
  gap := []
  body := " \x7b in: [\"ADMIN\", \"CLERK\"] \x7d ".toList
  lead_blank := by simp [Text.isBlank]
  claim_ne_nil := by simp
  claim_named := by simp [isClaimPart, Text.isBlank]
  gap_blank := by simp

/-- This body is a whole condition and nothing more. -/
theorem tokens?_adminOrClerk : tokens? (Text.trim adminOrClerk.body) =
    some (Literal.object [("in", .list [.word ⟨.text "ADMIN", .text "ADMIN", rfl⟩,
      .word ⟨.text "CLERK", .text "CLERK", rfl⟩])]).words :=
  rfl

/-- Of a single condition nothing is dropped. -/
theorem adminOrClerk_whole :
    ∃ rule, ofText (String.ofList adminOrClerk.chars) = .ok (.role rule) ∧
      IsWhole adminOrClerk.chars rule := by
  obtain ⟨rule, hrule⟩ := exists_role_of_any
    (show (ofText (String.ofList adminOrClerk.chars)).toOption.any isRole = true by decide +kernel)
  have htrim : Text.trim (String.ofList adminOrClerk.chars).toList = adminOrClerk.chars := by
    decide
  obtain ⟨t, entries, operator, last, others, rest, ht, _, hwords, _, _, _, _, hiff⟩ :=
    whole_iff_nothing_dropped hrule
  rw [htrim] at ht hiff
  obtain ⟨_, hbody⟩ := RoleText.eq_of_chars_eq ht
  rw [hbody, tokens?_adminOrClerk] at hwords
  obtain ⟨hentries, hnone⟩ := Literal.words_append_inj _ _ [] _
    ((List.append_nil _).trans (Option.some.inj hwords))
  obtain ⟨hothers, hrest⟩ := List.append_eq_nil_iff.1 hnone.symm
  obtain rfl := Literal.object.inj hentries
  refine ⟨rule, hrule, hiff.2 ⟨rfl, eq_nil_of_wordsOf_entryTrees hothers, hrest⟩⟩

end Rule

end GraphWarden
