import GraphWarden.Proofs.Json.Leaves
import GraphWarden.Proofs.Number.Text

/-!
# The layout without spaces

The text of a datum tells the datum, and it tells where it ends: what stands behind it is
no part of it, as long as that does not go on with a character of a numeral
(`compact_cancel`).  The proof follows the datum, and the first character says of which kind
it is.  Numbers must not be infinite, since those have no text of their own.

A text has no control characters, whatever the datum holds (`plain_compact`).
-/

namespace GraphWarden.Json

/-! ### Quoted texts -/

/-- The value of a hexadecimal digit in lower case. -/
def hexValue (c : Char) : Nat :=
  if c.toNat < 58 then c.toNat - 48 else c.toNat - 87

/-- The hexadecimal digits of a byte can be read back, so an escaped control character is known. -/
theorem hexValue_hexDigit : ∀ n < 16, hexValue (hexDigit n) = n := by
  decide

/-- The character that a letter after a backslash stands for. -/
def unescapedLetter (c : Char) : Char :=
  if c = 'n' then '\n'
  else if c = 'r' then '\r'
  else if c = 't' then '\t'
  else if c = 'b' then '\x08'
  else if c = 'f' then '\x0c'
  else c

/-- The first character inside a quoted text, and what stands behind it. -/
def unescape : List Char → Char × List Char
  | '\\' :: 'u' :: _ :: _ :: a :: b :: rest => (Char.ofNat (16 * hexValue a + hexValue b), rest)
  | '\\' :: c :: rest => (unescapedLetter c, rest)
  | c :: rest => (c, rest)
  | [] => (' ', [])

/-- What is written for a character inside quotes can be read back, whatever stands behind it: this
is the one place where the different ways of escaping matter. -/
theorem unescape_escaped (c : Char) (rest : List Char) :
    unescape (escaped c ++ rest) = (c, rest) := by
  have hcode : ∀ n, c.toNat = n → c = Char.ofNat n := by
    rintro n rfl
    rw [Char.ofNat_toNat]
  unfold escaped
  split
  · next h => subst h; rfl
  split
  · next h => subst h; rfl
  split
  · next h => subst h; rfl
  split
  · next h => subst h; rfl
  split
  · next h => subst h; rfl
  split
  · next h =>
      rw [hcode 8 h]
      rfl
  split
  · next h =>
      rw [hcode 12 h]
      rfl
  split
  · next h =>
      have hhigh := hexValue_hexDigit (c.toNat / 16) (by omega)
      have hlow := hexValue_hexDigit (c.toNat % 16) (by omega)
      have hsum : 16 * (c.toNat / 16) + c.toNat % 16 = c.toNat := Nat.div_add_mod _ _
      simp only [List.cons_append, List.nil_append, unescape, hhigh, hlow, hsum, Char.ofNat_toNat]
  · next hbackslash _ _ _ _ _ _ =>
      simp [unescape, hbackslash]

/-- A quote does not start the rest of a quoted text, because it is escaped there. -/
theorem quote_ne_escaped (c : Char) (rest rest' : List Char) :
    '"' :: rest ≠ escaped c ++ rest' := by
  intro h
  have hfirst := congrArg unescape h
  rw [unescape_escaped] at hfirst
  obtain rfl : '"' = c := congrArg Prod.fst hfirst
  exact absurd (List.cons.inj h).1 (by decide)

/-- Quoted texts can be told up to their closing quote.  By induction along the first of them,
reading one character off both at a time. -/
theorem escaped_cancel {cs ds rest rest' : List Char}
    (h : cs.flatMap escaped ++ '"' :: rest = ds.flatMap escaped ++ '"' :: rest') :
    cs = ds ∧ rest = rest' := by
  induction cs generalizing ds with
  | nil =>
      cases ds with
      | nil => exact ⟨rfl, (List.cons.inj h).2⟩
      | cons d ds =>
          rw [List.flatMap_cons, List.append_assoc] at h
          exact absurd h (quote_ne_escaped d _ _)
  | cons c cs ih =>
      rw [List.flatMap_cons, List.append_assoc] at h
      cases ds with
      | nil => exact absurd h.symm (quote_ne_escaped c _ _)
      | cons d ds =>
          rw [List.flatMap_cons, List.append_assoc] at h
          have hfirst := congrArg unescape h
          rw [unescape_escaped, unescape_escaped] at hfirst
          obtain ⟨rfl, hback⟩ := Prod.mk.inj hfirst
          obtain ⟨rfl, hrest⟩ := ih hback
          exact ⟨rfl, hrest⟩

/-- A quoted text, character by character. -/
theorem toList_quoted (s : String) :
    (quoted s).toList = '"' :: (s.toList.flatMap escaped ++ ['"']) := by
  unfold quoted
  rw [String.toList_ofList]

/-- A quoted text tells what it quotes, and where it ends. -/
theorem quoted_cancel {s t : String} {rest rest' : List Char}
    (h : (quoted s).toList ++ rest = (quoted t).toList ++ rest') : s = t ∧ rest = rest' := by
  simp only [toList_quoted, List.cons_append, List.append_assoc, List.nil_append] at h
  obtain ⟨hs, hrest⟩ := escaped_cancel (List.cons.inj h).2
  exact ⟨String.toList_inj.1 hs, hrest⟩

/-! ### Numerals -/

/-- A text that does not go on with a character of a numeral. -/
def Ends (rest : List Char) : Prop :=
  ∀ c ∈ rest.head?, ¬ IsNumeral c

theorem ends_nil : Ends [] := by
  simp [Ends]

theorem ends_cons {c : Char} (h : ¬ IsNumeral c) (rest : List Char) : Ends (c :: rest) := by
  simpa [Ends] using h

/-- Numerals can be told as long as the text behind them does not go on with a character of a
numeral, since they carry no mark at their end. -/
theorem numeral_cancel {cs ds rest rest' : List Char} (hcs : ∀ c ∈ cs, IsNumeral c)
    (hds : ∀ c ∈ ds, IsNumeral c) (hrest : Ends rest) (hrest' : Ends rest')
    (h : cs ++ rest = ds ++ rest') : cs = ds ∧ rest = rest' := by
  induction cs generalizing ds with
  | nil =>
      cases ds with
      | nil => exact ⟨rfl, h⟩
      | cons d ds =>
          rw [List.nil_append] at h
          exact absurd (hds d List.mem_cons_self) (hrest d (by simp [h]))
  | cons c cs ih =>
      cases ds with
      | nil =>
          rw [List.nil_append] at h
          exact absurd (hcs c List.mem_cons_self) (hrest' c (by simp [← h]))
      | cons d ds =>
          obtain ⟨rfl, hback⟩ := List.cons.inj h
          obtain ⟨rfl, hsame⟩ := ih (fun c hc => hcs c (List.mem_cons_of_mem _ hc))
            (fun c hc => hds c (List.mem_cons_of_mem _ hc)) hback
          exact ⟨rfl, hsame⟩

/-- The text of an integer is that of its digits, behind a sign if it is negative. -/
theorem toList_int (i : Int) :
    (toString i).toList
      = if 0 ≤ i then Nat.toDigits 10 i.toNat else '-' :: Nat.toDigits 10 (-i).toNat := by
  rw [Int.toString_eq_repr, Int.repr_eq_if]
  split
  · rw [Nat.repr_eq_ofList_toDigits, String.toList_ofList]
  · rw [String.toList_append, Nat.repr_eq_ofList_toDigits, String.toList_ofList,
      String.toList_ofList]
    rfl

/-- The text of an integer is of digits, but for its sign. -/
theorem eq_minus_or_isDigit {i : Int} {c : Char} (h : c ∈ (toString i).toList) :
    c = '-' ∨ c.isDigit = true := by
  rw [toList_int] at h
  split at h
  · exact Or.inr (AllDigits.toDigits _ c h)
  · rcases List.mem_cons.1 h with h | h
    · exact Or.inl h
    · exact Or.inr (AllDigits.toDigits _ c h)

theorem toDigits_inj {m n : Nat} (h : Nat.toDigits 10 m = Nat.toDigits 10 n) : m = n := by
  rw [← @Nat.ofDigitChars_ten_toDigits m, h, Nat.ofDigitChars_ten_toDigits]

/-- The text of an integer tells it: the sign is no digit, and behind it stand the digits of the
magnitude. -/
theorem int_inj {i i' : Int} (h : (toString i).toList = (toString i').toList) : i = i' := by
  have hminus : ∀ n rest, Nat.toDigits 10 n ≠ '-' :: rest := by
    intro n rest heq
    have hdigit := AllDigits.toDigits n '-' (by simp [heq])
    exact absurd hdigit (by decide)
  rw [toList_int, toList_int] at h
  split at h
  · split at h
    · have := toDigits_inj h
      omega
    · exact absurd h (hminus _ _)
  · split at h
    · exact absurd h.symm (hminus _ _)
    · have := toDigits_inj (List.cons.inj h).2
      omega

theorem isNumeral_of_mem_int {i : Int} {c : Char} (h : c ∈ (toString i).toList) : IsNumeral c := by
  rcases eq_minus_or_isDigit h with h | h
  · exact Or.inr (Or.inl h)
  · exact Or.inl h

/-- An integer and a number with a fraction or exponent have different texts. -/
theorem int_ne_dataText {i : Int} {x : Binary64} (hx : x.isFinite = true) :
    (toString i).toList ≠ x.dataText.toList := by
  intro h
  have hmark : '.' ∈ (toString i).toList ∨ 'e' ∈ (toString i).toList := by
    rw [h, Binary64.toList_dataText hx]
    exact x.laid_magnitudeText.mark.imp (List.mem_append_right _) (List.mem_append_right _)
  rcases hmark with hpoint | hpower
  · exact absurd (eq_minus_or_isDigit hpoint) (by decide)
  · exact absurd (eq_minus_or_isDigit hpower) (by decide)

/-- The datum is a number. -/
def IsNumber (j : Json) : Prop :=
  (∃ i, j = .int i) ∨ ∃ x, j = .float x

/-- Numbers are written in numerals, whichever kind of number they are. -/
theorem IsNumber.isNumeral {j : Json} (h : j.IsNumber) (hj : j.Bounded) :
    ∀ c ∈ (compact j).toList, IsNumeral c := by
  intro c hc
  rcases h with ⟨i, rfl⟩ | ⟨x, rfl⟩
  · exact isNumeral_of_mem_int hc
  · exact Binary64.isNumeral_of_mem_dataText hj hc

/-- A number has a text, so its first character says that it is one. -/
theorem IsNumber.head {j : Json} (h : j.IsNumber) (hj : j.Bounded) :
    ∃ c rest, (compact j).toList = c :: rest ∧ IsNumeral c := by
  have hnonempty : (compact j).toList ≠ [] := by
    rcases h with ⟨i, rfl⟩ | ⟨x, rfl⟩
    · rw [compact, toList_int]
      split <;> simp [Nat.toDigits_ne_nil]
    · obtain ⟨d, back, hd, _⟩ := x.laid_magnitudeText.head
      rw [compact, Binary64.toList_dataText hj, hd]
      simp
  obtain ⟨c, rest, hc⟩ := List.exists_cons_of_ne_nil hnonempty
  exact ⟨c, rest, hc, h.isNumeral hj c (by simp [hc])⟩

/-! ### Kinds of data -/

/-- A character that tells the kind of a datum; all numbers are of one kind. -/
def opening : Json → Char
  | .null => 'n'
  | .flag b => if b then 't' else 'f'
  | .int _ | .float _ => '0'
  | .text _ => '"'
  | .list _ => '['
  | .object _ => '\x7b'

/-- The kind that a text's first character tells. -/
def kindOf (c : Char) : Char :=
  if IsNumeral c then '0' else c

/-- The first character of a text says of which kind the datum is.  All kinds of numbers begin
alike and are told apart later. -/
theorem head_compact {j : Json} (hj : j.Bounded) :
    ∃ c rest, (compact j).toList = c :: rest ∧ kindOf c = opening j := by
  cases j with
  | null => exact ⟨'n', _, rfl, by decide⟩
  | flag b => cases b <;> exact ⟨_, _, rfl, by decide⟩
  | int i =>
      obtain ⟨c, rest, hc, hnumeral⟩ := IsNumber.head (.inl ⟨i, rfl⟩) hj
      exact ⟨c, rest, hc, if_pos hnumeral⟩
  | float x =>
      obtain ⟨c, rest, hc, hnumeral⟩ := IsNumber.head (.inr ⟨x, rfl⟩) hj
      exact ⟨c, rest, hc, if_pos hnumeral⟩
  | text s =>
      have hkind : kindOf '"' = '"' := by decide
      exact ⟨_, _, by rw [compact, toList_quoted], hkind⟩
  | list items =>
      have hkind : kindOf '[' = '[' := by decide
      exact ⟨_, _, by simp only [compact, String.toList_append]; rfl, hkind⟩
  | object entries =>
      have hkind : kindOf '\x7b' = '\x7b' := by decide
      exact ⟨_, _, by simp only [compact, String.toList_append]; rfl, hkind⟩

/-- Two texts that go on alike come from data of one kind. -/
theorem opening_eq {j j' : Json} (hj : j.Bounded) (hj' : j'.Bounded) {rest rest' : List Char}
    (h : (compact j).toList ++ rest = (compact j').toList ++ rest') : opening j = opening j' := by
  obtain ⟨c, back, hc, hkind⟩ := head_compact hj
  obtain ⟨d, back', hd, hkind'⟩ := head_compact hj'
  rw [hc, hd] at h
  rw [← hkind, ← hkind', (List.cons.inj h).1]

/-- The data of a datum's kind; a null and a flag are alone in theirs. -/
def OfKind : Json → Json → Prop
  | .null, j => j = .null
  | .flag b, j => j = .flag b
  | .int _, j | .float _, j => j.IsNumber
  | .text _, j => ∃ s, j = .text s
  | .list _, j => ∃ items, j = .list items
  | .object _, j => ∃ entries, j = .object entries

/-- The kinds that have one mark: a null and the two flags are alone in theirs, and the rest of a
datum is still open. -/
theorem ofKind_of_opening {j j' : Json} (h : opening j = opening j') : OfKind j j' := by
  cases j with
  | flag b =>
      cases j' with
      | flag b' => cases b <;> cases b' <;> first | rfl | exact absurd h (by decide)
      | _ => cases b <;> exact absurd h (by simp [opening])
  | _ =>
      cases j' with
      | flag b' => cases b' <;> exact absurd h (by simp [opening])
      | _ => simp_all [opening, OfKind, IsNumber]

/-- Where two texts start alike, the data are of one kind. -/
theorem ofKind_of_compact {j j' : Json} (hj : j.Bounded) (hj' : j'.Bounded)
    {rest rest' : List Char} (h : (compact j).toList ++ rest = (compact j').toList ++ rest') :
    OfKind j j' :=
  ofKind_of_opening (opening_eq hj hj' h)

/-! ### Cancellation -/

/-- A number is told by its text.  An integer never has the point or the exponent that every other
number has. -/
theorem number_inj {j j' : Json} (hnumber : j.IsNumber) (hnumber' : j'.IsNumber)
    (hj : j.Bounded) (hj' : j'.Bounded) (h : (compact j).toList = (compact j').toList) :
    j = j' := by
  rcases hnumber with ⟨i, rfl⟩ | ⟨x, rfl⟩
  · rcases hnumber' with ⟨i', rfl⟩ | ⟨x', rfl⟩
    · rw [int_inj h]
    · exact absurd h (int_ne_dataText hj')
  · rcases hnumber' with ⟨i', rfl⟩ | ⟨x', rfl⟩
    · exact absurd h.symm (int_ne_dataText hj)
    · rw [Binary64.dataText_inj hj hj' (String.toList_inj.1 h)]

/-- Two numbers in front of something that ends them are the same number, and what stands behind
them is the same too. -/
theorem number_cancel {j j' : Json} (hnumber : j.IsNumber) (hnumber' : j'.IsNumber)
    (hj : j.Bounded) (hj' : j'.Bounded) {rest rest' : List Char} (hrest : Ends rest)
    (hrest' : Ends rest') (h : (compact j).toList ++ rest = (compact j').toList ++ rest') :
    j = j' ∧ rest = rest' := by
  obtain ⟨htext, hsame⟩ :=
    numeral_cancel (hnumber.isNumeral hj) (hnumber'.isNumeral hj') hrest hrest' h
  exact ⟨number_inj hnumber hnumber' hj hj' htext, hsame⟩

/-- The text of a datum tells the datum and where it ends. -/
def Cancels (j : Json) : Prop :=
  j.Bounded → ∀ {j' : Json}, j'.Bounded → ∀ {rest rest'}, Ends rest → Ends rest' →
    (compact j).toList ++ rest = (compact j').toList ++ rest' → j = j' ∧ rest = rest'

/-- Texts with commas between them. -/
def joined {α : Type} (shown : α → List Char) : List α → List Char
  | [] => []
  | [a] => shown a
  | a :: as => shown a ++ ',' :: joined shown as

/-- The items of a list are laid out with commas between them. -/
theorem toList_compactItems (js : List Json) :
    (compactItems js).toList = joined (fun j => (compact j).toList) js := by
  induction js with
  | nil => rfl
  | cons j js ih =>
      cases js with
      | nil => simp [compactItems, joined]
      | cons k js =>
          simp only [compactItems, joined, String.toList_append, ih, List.append_assoc]
          rfl

/-- A key and what it holds. -/
def shownEntry (e : String × Json) : List Char :=
  (quoted e.1).toList ++ ':' :: (compact e.2).toList

/-- The entries of an object are laid out like items, each as a key with what it holds. -/
theorem toList_compactEntries (es : List (String × Json)) :
    (compactEntries es).toList = joined shownEntry es := by
  induction es with
  | nil => rfl
  | cons e es ih =>
      obtain ⟨k, j⟩ := e
      cases es with
      | nil =>
          simp only [compactEntries, joined, shownEntry, String.toList_append, List.append_assoc]
          rfl
      | cons f es =>
          simp only [compactEntries, joined, shownEntry, String.toList_append, ih,
            List.append_assoc]
          rfl

section Joined

variable {α : Type} {shown : α → List Char} {closing : Char}

/-- Behind the first text stands the closing bracket or a comma with the other texts. -/
theorem joined_cons (shown : α → List Char) (hnumeral : ¬ IsNumeral closing) (a : α)
    (as : List α) (rest : List Char) :
    ∃ back, joined shown (a :: as) ++ closing :: rest = shown a ++ back ∧ Ends back ∧
      (as = [] ∧ back = closing :: rest ∨
        as ≠ [] ∧ back = ',' :: (joined shown as ++ closing :: rest)) := by
  cases as with
  | nil => exact ⟨closing :: rest, rfl, ends_cons hnumeral _, Or.inl ⟨rfl, rfl⟩⟩
  | cons b bs =>
      refine ⟨',' :: (joined shown (b :: bs) ++ closing :: rest), ?_, ends_cons (by decide) _,
        Or.inr ⟨by simp, rfl⟩⟩
      simp [joined]

/-- What can be told one by one can be told in a row with a bracket behind it.  By induction on the
first row: each element is told from its counterpart, and a comma behind it from the bracket. -/
theorem joined_cancel (hcomma : closing ≠ ',') (hnumeral : ¬ IsNumeral closing) {as bs : List α}
    (hcancel : ∀ a ∈ as, ∀ b ∈ bs, ∀ {rest rest'}, Ends rest → Ends rest' →
      shown a ++ rest = shown b ++ rest' → a = b ∧ rest = rest')
    (has : ∀ a ∈ as, ∀ rest rest', shown a ++ rest ≠ closing :: rest')
    (hbs : ∀ b ∈ bs, ∀ rest rest', shown b ++ rest ≠ closing :: rest')
    {rest rest' : List Char}
    (h : joined shown as ++ closing :: rest = joined shown bs ++ closing :: rest') :
    as = bs ∧ rest = rest' := by
  induction as generalizing bs with
  | nil =>
      cases bs with
      | nil => exact ⟨rfl, (List.cons.inj h).2⟩
      | cons b bs =>
          obtain ⟨back, hback, _⟩ := joined_cons shown hnumeral b bs rest'
          rw [hback] at h
          exact absurd h.symm (hbs b List.mem_cons_self _ _)
  | cons a as ih =>
      obtain ⟨back, hback, hends, hlast⟩ := joined_cons shown hnumeral a as rest
      rw [hback] at h
      cases bs with
      | nil => exact absurd h (has a List.mem_cons_self _ _)
      | cons b bs =>
          obtain ⟨back', hback', hends', hlast'⟩ := joined_cons shown hnumeral b bs rest'
          rw [hback'] at h
          obtain ⟨rfl, rfl⟩ :=
            hcancel a List.mem_cons_self b List.mem_cons_self hends hends' h
          rcases hlast with ⟨rfl, rfl⟩ | ⟨_, rfl⟩
          · rcases hlast' with ⟨rfl, hsame⟩ | ⟨_, hsame⟩
            · exact ⟨rfl, (List.cons.inj hsame).2⟩
            · exact absurd (List.cons.inj hsame).1 hcomma
          · rcases hlast' with ⟨_, hsame⟩ | ⟨_, hsame⟩
            · exact absurd (List.cons.inj hsame).1.symm hcomma
            · obtain ⟨rfl, hrest⟩ := ih
                (fun a ha b hb =>
                  hcancel a (List.mem_cons_of_mem _ ha) b (List.mem_cons_of_mem _ hb))
                (fun a ha => has a (List.mem_cons_of_mem _ ha))
                (fun b hb => hbs b (List.mem_cons_of_mem _ hb)) (List.cons.inj hsame).2
              exact ⟨rfl, hrest⟩

end Joined

/-- An entry can be told when what it holds can be: the key is quoted, and the colon behind it is
no part of anything. -/
theorem Cancels.entry {e f : String × Json} (he : Cancels e.2) (hbounded : e.2.Bounded)
    (hbounded' : f.2.Bounded) {rest rest' : List Char} (hrest : Ends rest) (hrest' : Ends rest')
    (h : shownEntry e ++ rest = shownEntry f ++ rest') : e = f ∧ rest = rest' := by
  simp only [shownEntry, List.append_assoc] at h
  obtain ⟨hkey, hback⟩ := quoted_cancel h
  obtain ⟨hvalue, hsame⟩ := he hbounded hbounded' hrest hrest' (List.cons.inj hback).2
  exact ⟨Prod.ext hkey hvalue, hsame⟩

/-- No datum starts like the end of a list, so an empty list is told from others by its first
character. -/
theorem compact_ne_bracket {j : Json} (hj : j.Bounded) (rest rest' : List Char) :
    (compact j).toList ++ rest ≠ ']' :: rest' := by
  intro h
  obtain ⟨c, back, hc, hkind⟩ := head_compact hj
  rw [hc] at h
  obtain rfl := (List.cons.inj h).1
  cases j with
  | flag b => cases b <;> exact absurd hkind (by decide)
  | _ => exact absurd hkind (by simp [opening, kindOf, show ¬ IsNumeral ']' by decide])

/-- A list can be told when each of its items can. -/
theorem cancels_list {items : List Json} (ih : ∀ j ∈ items, Cancels j) : Cancels (.list items) := by
  intro hj j' hj' rest rest' _ _ h
  obtain ⟨items', rfl⟩ := ofKind_of_compact hj hj' h
  have hitems := leavesItems_iff.1 hj
  have hitems' := leavesItems_iff.1 hj'
  simp only [compact, String.toList_append, toList_compactItems, List.append_assoc] at h
  obtain ⟨rfl, hsame⟩ := joined_cancel (by decide) (by decide)
    (fun a ha b hb => ih a ha (hitems a ha) (hitems' b hb))
    (fun a ha => compact_ne_bracket (hitems a ha)) (fun b hb => compact_ne_bracket (hitems' b hb))
    (List.append_cancel_left h)
  exact ⟨rfl, hsame⟩

/-- An object can be told when what its entries hold can.  An entry starts with a quote, which the
closing brace is not. -/
theorem cancels_object {entries : List (String × Json)} (ih : ∀ e ∈ entries, Cancels e.2) :
    Cancels (.object entries) := by
  intro hj j' hj' rest rest' _ _ h
  obtain ⟨entries', rfl⟩ := ofKind_of_compact hj hj' h
  have hentries := leavesEntries_iff.1 hj
  have hentries' := leavesEntries_iff.1 hj'
  have hkey : ∀ (e : String × Json) (rest rest' : List Char),
      shownEntry e ++ rest ≠ '\x7d' :: rest' := by
    intro e rest rest' heq
    simp only [shownEntry, toList_quoted, List.cons_append] at heq
    exact absurd (List.cons.inj heq).1 (by decide)
  simp only [compact, String.toList_append, toList_compactEntries, List.append_assoc] at h
  obtain ⟨rfl, hsame⟩ := joined_cancel (by decide) (by decide)
    (fun a ha b hb => (ih a ha).entry (hentries a ha) (hentries' b hb))
    (fun a _ => hkey a) (fun b _ => hkey b) (List.append_cancel_left h)
  exact ⟨rfl, hsame⟩

mutual

/-- **Every datum can be told from its text**, along with the place where it ends.  The induction
is on the first datum, and the other one turns out to be of its kind. -/
theorem cancels : (j : Json) → Cancels j
  | .null => by
      intro hj j' hj' rest rest' _ _ h
      obtain rfl := ofKind_of_compact hj hj' h
      exact ⟨rfl, List.append_cancel_left h⟩
  | .flag b => by
      intro hj j' hj' rest rest' _ _ h
      obtain rfl := ofKind_of_compact hj hj' h
      exact ⟨rfl, List.append_cancel_left h⟩
  | .int i => fun hj _ hj' _ _ hrest hrest' h =>
      number_cancel (.inl ⟨i, rfl⟩) (ofKind_of_compact hj hj' h) hj hj' hrest hrest' h
  | .float x => fun hj _ hj' _ _ hrest hrest' h =>
      number_cancel (.inr ⟨x, rfl⟩) (ofKind_of_compact hj hj' h) hj hj' hrest hrest' h
  | .text s => by
      intro hj j' hj' rest rest' _ _ h
      obtain ⟨t, rfl⟩ := ofKind_of_compact hj hj' h
      obtain ⟨rfl, hsame⟩ := quoted_cancel h
      exact ⟨rfl, hsame⟩
  | .list items => cancels_list (cancels_items items)
  | .object entries => cancels_object (cancels_entries entries)

theorem cancels_items : (js : List Json) → ∀ j ∈ js, Cancels j
  | [] => by simp
  | j :: js => List.forall_mem_cons.2 ⟨cancels j, cancels_items js⟩

theorem cancels_entries : (es : List (String × Json)) → ∀ e ∈ es, Cancels e.2
  | [] => by simp
  | (_, j) :: es => List.forall_mem_cons.2 ⟨cancels j, cancels_entries es⟩

end

/-- **Two data with one text are the same datum.** -/
theorem compact_inj {j j' : Json} (hj : j.Bounded) (hj' : j'.Bounded)
    (h : compact j = compact j') : j = j' :=
  (cancels j hj hj' ends_nil ends_nil (by rw [h])).1

/-! ### Characters of a text -/

/-- Nothing but characters that are shown: no control characters. -/
def Plain (cs : List Char) : Prop :=
  ∀ c ∈ cs, 32 ≤ c.toNat

instance (cs : List Char) : Decidable (Plain cs) :=
  List.decidableBAll (fun (c : Char) => 32 ≤ c.toNat) cs

section Plain

variable {cs ds : List Char} {c : Char}

theorem Plain.append (hc : Plain cs) (hd : Plain ds) : Plain (cs ++ ds) := by
  intro c hmem
  rcases List.mem_append.1 hmem with h | h
  · exact hc c h
  · exact hd c h

theorem Plain.cons (hc : 32 ≤ c.toNat) (hd : Plain ds) : Plain (c :: ds) :=
  List.forall_mem_cons.2 ⟨hc, hd⟩

/-- Numerals have no control characters. -/
theorem plain_of_isNumeral (h : ∀ c ∈ cs, IsNumeral c) : Plain cs := by
  intro c hc
  rcases h c hc with hdigit | rfl | rfl | rfl | rfl
  · have hlow : (48 : UInt32) ≤ c.val := by
      simp only [Char.isDigit, Bool.and_eq_true, decide_eq_true_eq] at hdigit
      exact hdigit.1
    have hlow' : 48 ≤ c.toNat := hlow
    omega
  · decide
  · decide
  · decide
  · decide

/-- Inside quotes a control character is written with others: that is what escaping is for. -/
theorem plain_escaped (c : Char) : Plain (escaped c) := by
  have hhex : ∀ n < 16, 32 ≤ (hexDigit n).toNat := by decide
  unfold escaped
  split
  · decide
  split
  · decide
  split
  · decide
  split
  · decide
  split
  · decide
  split
  · decide
  split
  · decide
  split
  · next h =>
      have hfront : Plain ['\\', 'u', '0', '0'] := by decide
      exact hfront.append (.cons (hhex _ (by omega)) (.cons (hhex _ (by omega)) (by decide)))
  · next h => exact .cons (not_lt.1 h) (by decide)

/-- A quoted text has no control characters, even if the text that it quotes does: they are
escaped. -/
theorem plain_quoted (s : String) : Plain (quoted s).toList := by
  rw [toList_quoted]
  refine .cons (by decide) (.append ?_ (by decide))
  intro c hc
  obtain ⟨d, _, hd⟩ := List.mem_flatMap.1 hc
  exact plain_escaped d c hd

/-- Commas between texts are no control characters either. -/
theorem plain_joined {α : Type} {shown : α → List Char} {as : List α}
    (h : ∀ a ∈ as, Plain (shown a)) : Plain (joined shown as) := by
  induction as with
  | nil => simp [joined, Plain]
  | cons a as ih =>
      have ha := h a List.mem_cons_self
      cases as with
      | nil => exact ha
      | cons b bs =>
          have htail := ih fun a ha => h a (List.mem_cons_of_mem _ ha)
          exact ha.append (.cons (by decide) htail)

end Plain

mutual

/-- **A text has no control characters.** -/
theorem plain_compact : (j : Json) → j.Bounded → Plain (compact j).toList
  | .null, _ => by decide
  | .flag b, _ => by cases b <;> decide
  | .int _, _ => plain_of_isNumeral fun _ hc => isNumeral_of_mem_int hc
  | .float _, hj => plain_of_isNumeral fun _ hc => Binary64.isNumeral_of_mem_dataText hj hc
  | .text s, _ => plain_quoted s
  | .list items, hj => by
      simp only [compact, String.toList_append, toList_compactItems]
      exact .append (.append (by decide)
        (plain_joined fun j hmem => plain_items items j hmem (leavesItems_iff.1 hj j hmem)))
        (by decide)
  | .object entries, hj => by
      simp only [compact, String.toList_append, toList_compactEntries]
      refine .append (.append (by decide) (plain_joined fun e hmem => ?_)) (by decide)
      exact (plain_quoted e.1).append
        (.cons (by decide) (plain_entries entries e hmem (leavesEntries_iff.1 hj e hmem)))

theorem plain_items : (js : List Json) → ∀ j ∈ js, j.Bounded → Plain (compact j).toList
  | [] => by simp
  | j :: js => List.forall_mem_cons.2 ⟨plain_compact j, plain_items js⟩

theorem plain_entries : (es : List (String × Json)) → ∀ e ∈ es, e.2.Bounded →
    Plain (compact e.2).toList
  | [] => by simp
  | (_, j) :: es => List.forall_mem_cons.2 ⟨plain_compact j, plain_entries es⟩

end

end GraphWarden.Json
