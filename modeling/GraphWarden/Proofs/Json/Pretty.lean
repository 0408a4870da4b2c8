import GraphWarden.Proofs.Json.Compact

/-!
# The layout with lines

The layout with one item or entry a line has nothing that the layout without spaces does not have,
but for blanks and line ends between its marks.  A blank inside quotes is part of a text and stays,
so the walk that drops the others has to know its place: outside of quotes, inside of them, or
behind a backslash there.

What is left when they are dropped is the layout without spaces (`bare_pretty`).  So the layout
with lines tells the datum too (`pretty_inj`), at whatever level of indentation.
-/

namespace GraphWarden.Json

/-- Where a walk through a text stands. -/
inductive Place where
  | outside
  | quoted
  | escaped
deriving DecidableEq

/-- Where the walk stands behind a character.  A quote that is escaped ends nothing. -/
def Place.next : Place → Char → Place
  | .outside, c => if c = '"' then .quoted else .outside
  | .quoted, c => if c = '"' then .outside else if c = '\\' then .escaped else .quoted
  | .escaped, _ => .quoted

/-- A text without the blanks and line ends that stand outside of its quotes. -/
def bare : Place → List Char → List Char
  | _, [] => []
  | p, c :: cs =>
    if p = .outside ∧ (c = ' ' ∨ c = '\n') then bare (p.next c) cs else c :: bare (p.next c) cs

/-! ### Marks and blanks -/

/-- No quotes and nothing that is dropped outside of them. -/
def Solid (cs : List Char) : Prop :=
  ∀ c ∈ cs, c ≠ '"' ∧ c ≠ ' ' ∧ c ≠ '\n'

instance (cs : List Char) : Decidable (Solid cs) :=
  List.decidableBAll (fun (c : Char) => c ≠ '"' ∧ c ≠ ' ' ∧ c ≠ '\n') cs

/-- Outside of quotes a solid text stays as it is, and the walk is outside of them behind it. -/
theorem Solid.bare_append {cs : List Char} (h : Solid cs) (rest : List Char) :
    bare .outside (cs ++ rest) = cs ++ bare .outside rest := by
  induction cs with
  | nil => rfl
  | cons c cs ih =>
      obtain ⟨⟨hquote, hblank, hline⟩, hcs⟩ := List.forall_mem_cons.1 h
      simp [bare, Place.next, hquote, hblank, hline, ih hcs]

/-- Such are the marks and the words of the interchange form. -/
theorem bare_mark (mark : String) (h : Solid mark.toList) (rest : List Char) :
    bare .outside (mark.toList ++ rest) = mark.toList ++ bare .outside rest :=
  h.bare_append rest

/-- The characters of a numeral are no blanks. -/
theorem solid_of_isNumeral {cs : List Char} (h : ∀ c ∈ cs, IsNumeral c) : Solid cs := by
  intro c hc
  have hnumeral := h c hc
  refine ⟨?_, ?_, ?_⟩
  · rintro rfl
    exact absurd hnumeral (by decide)
  · rintro rfl
    exact absurd hnumeral (by decide)
  · rintro rfl
    exact absurd hnumeral (by decide)

/-- An infinite number is written as a word, every other one as a numeral. -/
theorem solid_dataText (x : Binary64) : Solid x.dataText.toList := by
  by_cases hfinite : x.isFinite = true
  · exact solid_of_isNumeral fun _ hc => Binary64.isNumeral_of_mem_dataText hfinite hc
  · have hword : x.dataText = "null" := by
      simp [Binary64.dataText, hfinite]
    rw [hword]
    decide

/-- The start of a line is all blank, at every level. -/
theorem bare_margin (level : Nat) (rest : List Char) :
    bare .outside ((margin level).toList ++ rest) = bare .outside rest := by
  have hblanks : ∀ n, bare .outside (List.replicate n ' ' ++ rest) = bare .outside rest := by
    intro n
    induction n with
    | zero => rfl
    | succ n ih =>
        rw [List.replicate_succ, List.cons_append]
        exact ih
  have hmargin : (margin level).toList = '\n' :: List.replicate (2 * level) ' ' := by
    simp [margin]
  rw [hmargin]
  exact hblanks (2 * level)

/-- The mark behind a key is followed by a blank. -/
theorem bare_colon (rest : List Char) :
    bare .outside (": ".toList ++ rest) = ":".toList ++ bare .outside rest :=
  rfl

/-! ### Quoted texts -/

/-- The digits of an escaped control character neither end a quoted text nor escape anything. -/
theorem next_hexDigit : ∀ n < 16, Place.quoted.next (hexDigit n) = .quoted := by
  decide

/-- Whatever stands for a character inside quotes stays, and the walk is inside of them behind
it: the quote and the backslash come with a backslash in front of them. -/
theorem bare_escaped (c : Char) (rest : List Char) :
    bare .quoted (escaped c ++ rest) = escaped c ++ bare .quoted rest := by
  unfold escaped
  split
  · rfl
  split
  · rfl
  split
  · rfl
  split
  · rfl
  split
  · rfl
  split
  · rfl
  split
  · rfl
  split
  · next h =>
      have hhigh := next_hexDigit (c.toNat / 16) (by omega)
      have hlow := next_hexDigit (c.toNat % 16) (by omega)
      have hzero : Place.quoted.next '0' = .quoted := by decide
      have hmark : Place.escaped.next 'u' = .quoted := rfl
      have hback : Place.quoted.next '\\' = .escaped := by decide
      simp [bare, hhigh, hlow, hzero, hmark, hback]
  · next hquote hback _ _ _ _ _ _ => simp [bare, Place.next, hquote, hback]

/-- A quoted text stays as it is, blanks included. -/
theorem bare_quoted (s : String) (rest : List Char) :
    bare .outside ((quoted s).toList ++ rest) = (quoted s).toList ++ bare .outside rest := by
  have hinside : ∀ cs : List Char, bare .quoted (cs.flatMap escaped ++ '"' :: rest) =
      cs.flatMap escaped ++ '"' :: bare .outside rest := by
    intro cs
    induction cs with
    | nil => rfl
    | cons c cs ih => rw [List.flatMap_cons, List.append_assoc, bare_escaped, ih, List.append_assoc]
  simp only [toList_quoted, List.cons_append, List.append_assoc, List.nil_append]
  rw [← hinside]
  rfl

/-! ### Data -/

mutual

/-- **Without its blanks the layout with lines is the layout without spaces.**  The walk is outside
of quotes in front of a datum and behind it, so this goes on with what stands behind. -/
theorem bare_pretty : (j : Json) → ∀ level rest,
    bare .outside ((pretty level j).toList ++ rest) = (compact j).toList ++ bare .outside rest
  | .null => fun _ _ => bare_mark "null" (by decide) _
  | .flag true => fun _ _ => bare_mark "true" (by decide) _
  | .flag false => fun _ _ => bare_mark "false" (by decide) _
  | .int i => fun _ _ => Solid.bare_append (solid_of_isNumeral fun _ hc => isNumeral_of_mem_int hc) _
  | .float x => fun _ _ => (solid_dataText x).bare_append _
  | .text s => fun _ _ => bare_quoted s _
  | .list [] => fun _ _ => bare_mark "[]" (by decide) _
  | .object [] => fun _ _ => bare_mark "\x7b\x7d" (by decide) _
  | .list (j :: js) => by
      intro level rest
      have hopen := bare_mark "[" (by decide)
      have hclose := bare_mark "]" (by decide)
      simp only [pretty, compact, String.toList_append, List.append_assoc]
      rw [hopen, bare_prettyItems (j :: js), bare_margin, hclose]
  | .object (e :: es) => by
      intro level rest
      have hopen := bare_mark "\x7b" (by decide)
      have hclose := bare_mark "\x7d" (by decide)
      simp only [pretty, compact, String.toList_append, List.append_assoc]
      rw [hopen, bare_prettyEntries (e :: es), bare_margin, hclose]

/-- Items keep their marks and lose the blanks between them. -/
theorem bare_prettyItems : (js : List Json) → ∀ level rest,
    bare .outside ((prettyItems level js).toList ++ rest) =
      (compactItems js).toList ++ bare .outside rest
  | [] => fun _ _ => rfl
  | [j] => by
      intro level rest
      simp only [prettyItems, compactItems, String.toList_append, List.append_assoc]
      rw [bare_margin, bare_pretty j]
  | j :: k :: js => by
      intro level rest
      have hcomma := bare_mark "," (by decide)
      simp only [prettyItems, compactItems, String.toList_append, List.append_assoc]
      rw [bare_margin, bare_pretty j, hcomma, bare_prettyItems (k :: js)]

/-- Entries keep their names and marks and lose the blanks between them, and the one behind a
colon. -/
theorem bare_prettyEntries : (es : List (String × Json)) → ∀ level rest,
    bare .outside ((prettyEntries level es).toList ++ rest) =
      (compactEntries es).toList ++ bare .outside rest
  | [] => fun _ _ => rfl
  | [(k, j)] => by
      intro level rest
      simp only [prettyEntries, compactEntries, String.toList_append, List.append_assoc]
      rw [bare_margin, bare_quoted, bare_colon, bare_pretty j]
  | (k, j) :: e :: es => by
      intro level rest
      have hcomma := bare_mark "," (by decide)
      simp only [prettyEntries, compactEntries, String.toList_append, List.append_assoc]
      rw [bare_margin, bare_quoted, bare_colon, bare_pretty j, hcomma, bare_prettyEntries (e :: es)]

end

/-- **Two data with one text are the same datum**, in the layout with lines as in the other. -/
theorem pretty_inj {j j' : Json} (hj : j.Bounded) (hj' : j'.Bounded) {level : Nat}
    (h : pretty level j = pretty level j') : j = j' := by
  refine compact_inj hj hj' (String.toList_inj.1 ?_)
  have hleft := bare_pretty j level []
  have hright := bare_pretty j' level []
  rw [h, hright] at hleft
  simpa using hleft.symm

end GraphWarden.Json
