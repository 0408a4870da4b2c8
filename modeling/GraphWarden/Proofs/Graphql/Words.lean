import Mathlib.Data.List.TakeWhile
import GraphWarden.Graphql.Token

/-!
# The words of a text that is pasted in front of another

A text is read into words from left to right, so the words of a text with something pasted behind
it are the words of the text, and then those of what is pasted.  There are two ways to fail: the
last word may run on into what follows, and a comment may swallow it.

What closes a bracket does not lengthen a word, because it is no part of a name or a numeral and
ends no quoted text.  Behind such an end (`IsEnd`) **the words of the text are found again in
front**, and what is pasted is read whole or swallowed whole (`tokens?_append`).
-/

namespace GraphWarden.Graphql

/-! ### Words and what follows them -/

/-- Where two cuts of one text are compared, and what ends the first part is not in the second
tail, the first cut is no later. -/
theorem exists_of_append_cons_eq {α : Type} (before : List α) {rest cs tail : List α} {x : α}
    (h : before ++ x :: rest = cs ++ tail) (hx : x ∉ tail) :
    ∃ r, cs = before ++ x :: r ∧ rest = r ++ tail := by
  rcases List.append_eq_append_iff.1 h with ⟨more, rfl, hrest⟩ | ⟨more, rfl, htail⟩
  · cases more with
    | nil =>
        rw [List.nil_append] at hrest
        exact absurd (by simp [← hrest]) hx
    | cons y more =>
        obtain ⟨rfl, rfl⟩ := List.cons.inj hrest
        exact ⟨more, rfl, rfl⟩
  · exact absurd (by simp [htail]) hx

/-- A quoted text ends at a quote, and what follows the quote has no part in it.  By induction
along the reading; an escape with four digits is one step, so that a quote among them is not taken
for the end. -/
theorem exists_of_quotedRest {cs out rest : List Char} (h : quotedRest cs = some (out, rest)) :
    ∃ used, cs = used ++ '"' :: rest ∧
      ∀ rest', quotedRest (used ++ '"' :: rest') = some (out, rest') := by
  fun_induction quotedRest cs generalizing out rest with
  | case1 => simp at h
  | case2 rest' =>
      obtain ⟨rfl, rfl⟩ := by simpa using h
      exact ⟨[], rfl, fun _ => rfl⟩
  | case3 => simp at h
  | case4 a b c d cs ih =>
      obtain ⟨p, hp, h⟩ := Option.bind_eq_some_iff.1 h
      obtain ⟨⟨out', rest'⟩, hrest, h⟩ := Option.bind_eq_some_iff.1 h
      obtain ⟨rfl, rfl⟩ := by simpa using h
      obtain ⟨used, rfl, hused⟩ := ih hrest
      refine ⟨'\\' :: 'u' :: a :: b :: c :: d :: used, rfl, ?_⟩
      intro r
      simp [quotedRest, hp, hused r]
  | case5 c cs hnot ih =>
      obtain ⟨p, hp, h⟩ := Option.bind_eq_some_iff.1 h
      obtain ⟨⟨out', rest'⟩, hrest, h⟩ := Option.bind_eq_some_iff.1 h
      obtain ⟨rfl, rfl⟩ := by simpa using h
      obtain ⟨used, rfl, hused⟩ := ih hrest
      refine ⟨'\\' :: c :: used, rfl, ?_⟩
      intro r
      have hc : c ≠ 'u' := by
        rintro rfl
        simp [escape?] at hp
      rw [List.cons_append, List.cons_append, quotedRest]
      · simp [hp, hused r]
      · intro a b c' d more hu
        exact absurd hu hc
  | case6 c cs hquote hline _ hescape ih =>
      obtain ⟨⟨out', rest'⟩, hrest, h⟩ := Option.bind_eq_some_iff.1 h
      obtain ⟨rfl, rfl⟩ := by simpa using h
      obtain ⟨used, rfl, hused⟩ := ih hrest
      refine ⟨c :: used, rfl, ?_⟩
      intro r
      have hc : c ≠ '\\' := by
        rintro rfl
        obtain ⟨d, more, hmore⟩ := List.exists_cons_of_ne_nil (l := used ++ '"' :: rest') (by simp)
        exact hescape d more rfl hmore
      rw [List.cons_append, quotedRest]
      · simp [hused r]
      · exact hquote
      · exact hline
      · intro _ _ _ _ _ hback
        exact absurd hback hc
      · intro _ _ hback
        exact absurd hback hc

/-- A block of text ends at three quotes, and what follows them has no part in it.  What was used
up in front may itself end in one quote or two, and still the three behind it are found, because
the first three in a row end the block. -/
theorem exists_of_blockRest {escaped : Bool} {cs out rest : List Char}
    (h : blockRest escaped cs = some (out, rest)) :
    ∃ used, cs = used ++ '"' :: '"' :: '"' :: rest ∧
      ∀ rest', blockRest escaped (used ++ '"' :: '"' :: '"' :: rest') = some (out, rest') := by
  fun_induction blockRest escaped cs generalizing out rest with
  | case1 => simp at h
  | case2 cs ih =>
      obtain ⟨⟨out', rest'⟩, hrest, h⟩ := Option.bind_eq_some_iff.1 h
      obtain ⟨rfl, rfl⟩ := by simpa using h
      obtain ⟨used, rfl, hused⟩ := ih hrest
      refine ⟨'"' :: '"' :: '"' :: used, rfl, ?_⟩
      intro r
      simp [blockRest, hused r]
  | case3 escaped cs hescaped =>
      obtain ⟨rfl, rfl⟩ := by simpa using h
      refine ⟨[], rfl, ?_⟩
      intro r
      simp [blockRest, hescaped]
  | case4 escaped c cs hblock ih =>
      obtain ⟨⟨out', rest'⟩, hrest, h⟩ := Option.bind_eq_some_iff.1 h
      obtain ⟨rfl, rfl⟩ := by simpa using h
      obtain ⟨used, rfl, hused⟩ := ih hrest
      refine ⟨c :: used, rfl, ?_⟩
      intro r
      have hblock' : ∀ more, c = '"' →
          used ++ '"' :: '"' :: '"' :: r ≠ '"' :: '"' :: more := by
        intro more hc hmore
        match used with
        | [] => exact hblock _ hc rfl
        | [x] =>
            obtain ⟨rfl, _⟩ := List.cons.inj hmore
            exact hblock _ hc rfl
        | x :: y :: used =>
            simp only [List.cons_append, List.cons.injEq] at hmore
            obtain ⟨rfl, rfl, _⟩ := hmore
            exact hblock _ hc rfl
      rw [List.cons_append, blockRest]
      · simp [hused r]
      · exact fun more hc hmore => hblock' more hc hmore

/-- Reading a quoted text uses up its closing quote at least. -/
theorem length_quotedRest_lt {cs out rest : List Char} (h : quotedRest cs = some (out, rest)) :
    rest.length < cs.length := by
  obtain ⟨used, rfl, _⟩ := exists_of_quotedRest h
  simp only [List.length_append, List.length_cons]
  omega

/-- Reading a block of text uses up its closing quotes at least. -/
theorem length_blockRest_lt {escaped : Bool} {cs out rest : List Char}
    (h : blockRest escaped cs = some (out, rest)) : rest.length < cs.length := by
  obtain ⟨used, rfl, _⟩ := exists_of_blockRest h
  simp only [List.length_append, List.length_cons]
  omega

/-- A word takes at least one character, whatever kind of word it is.  So there are enough turns to
read a text when there is one for each of its characters. -/
theorem length_word?_lt {cs rest : List Char} {t : Token} (h : word? cs = some (t, rest)) :
    rest.length < cs.length := by
  unfold word? at h
  split at h
  · simp at h
  · next cs =>
    obtain ⟨⟨out, rest'⟩, hrest, h⟩ := Option.bind_eq_some_iff.1 h
    obtain ⟨rfl, rfl⟩ := by simpa using h
    have hlt := length_blockRest_lt hrest
    simp only [List.length_cons]
    omega
  · next cs =>
    obtain ⟨⟨out, rest'⟩, hrest, h⟩ := Option.bind_eq_some_iff.1 h
    obtain ⟨rfl, rfl⟩ := by simpa using h
    have hlt := length_quotedRest_lt hrest
    simp only [List.length_cons]
    omega
  · obtain ⟨rfl, rfl⟩ := by simpa using h
    simp only [List.length_cons]
    omega
  · next c cs _ _ _ =>
    have hdrop : ∀ p, (cs.dropWhile p).length ≤ cs.length :=
      fun p => (List.dropWhile_suffix p).length_le
    split at h
    · obtain ⟨rfl, rfl⟩ := by simpa using h
      simp
    · obtain ⟨rfl, rfl⟩ := by simpa using h
      simp
    · split at h
      · obtain ⟨rfl, rfl⟩ := by simpa using h
        simp
      · split at h
        · obtain ⟨rfl, rfl⟩ := by simpa using h
          exact Nat.lt_succ_of_le (hdrop _)
        · split at h
          · obtain ⟨token, _, h⟩ := Option.bind_eq_some_iff.1 h
            obtain ⟨rfl, rfl⟩ := by simpa using h
            exact Nat.lt_succ_of_le (hdrop _)
          · simp at h

/-! ### All words -/

/-- How many turns the reading of words is given makes no difference, as long as there is one for
each character. -/
theorem tokensWithin_congr {m n : Nat} {cs : List Char} (hm : cs.length ≤ m) (hn : cs.length ≤ n) :
    tokensWithin m cs = tokensWithin n cs := by
  induction m generalizing n cs with
  | zero =>
      obtain rfl := List.length_eq_zero_iff.1 (Nat.le_zero.1 hm)
      cases n <;> rfl
  | succ m ih =>
      match cs, n, hn with
      | [], 0, _ => rfl
      | [], n + 1, _ => rfl
      | c :: rest, n + 1, hn =>
          have hm' : rest.length ≤ m := Nat.le_of_succ_le_succ hm
          have hn' : rest.length ≤ n := Nat.le_of_succ_le_succ hn
          rw [tokensWithin, tokensWithin, ih hm' hn']
          have hdrop : ∀ p, (rest.dropWhile p).length ≤ rest.length :=
            fun p => (List.dropWhile_suffix p).length_le
          rw [ih (Nat.le_trans (hdrop _) hm') (Nat.le_trans (hdrop _) hn')]
          cases hword : word? (c :: rest) with
          | none => rfl
          | some r =>
              have hlt : r.2.length < rest.length + 1 := length_word?_lt hword
              have hrest : tokensWithin m r.2 = tokensWithin n r.2 := ih (by omega) (by omega)
              simp [bind, Option.bind, hrest]

/-- The words of a text, from its first character on. -/
theorem tokens?_cons (c : Char) (rest : List Char) :
    tokens? (c :: rest) =
      if isIgnored c then tokens? rest
      else if c = '#' then tokens? (rest.dropWhile fun c => !(c = '\n' || c = '\r'))
      else (word? (c :: rest)).bind fun r => (tokens? r.2).map (r.1 :: ·) := by
  rw [tokens?, List.length_cons, tokensWithin]
  have hdrop : ∀ p, (rest.dropWhile p).length ≤ rest.length :=
    fun p => (List.dropWhile_suffix p).length_le
  rw [tokensWithin_congr (hdrop _) (Nat.le_refl _)]
  cases hword : word? (c :: rest) with
  | none => rfl
  | some r =>
      have hlt : r.2.length < rest.length + 1 := length_word?_lt hword
      have hrest : tokensWithin rest.length r.2 = tokens? r.2 :=
        tokensWithin_congr (by omega) (Nat.le_refl _)
      simp only [bind, Option.bind, hrest]
      cases tokens? r.2 <;> rfl

/-- A character that is ignored is no part of any word. -/
theorem tokens?_of_ignored {c : Char} (h : isIgnored c = true) (rest : List Char) :
    tokens? (c :: rest) = tokens? rest := by
  rw [tokens?_cons, if_pos h]

/-- What begins with a word has that word in front of the words of the rest.  Comments are set
apart, because a number sign begins one and no word. -/
theorem tokens?_of_word {c : Char} {rest rest' : List Char} {t : Token}
    (hword : word? (c :: rest) = some (t, rest')) (hignored : isIgnored c = false)
    (hcomment : c ≠ '#') : tokens? (c :: rest) = (tokens? rest').map (t :: ·) := by
  rw [tokens?_cons, if_neg (by simp [hignored]), if_neg hcomment, hword]
  rfl

/-! ### What is pasted behind -/

/-- What may be pasted behind a text without lengthening its words: a closing bracket, and then
nothing that ends a quoted text or a comment or stands for a word of several marks. -/
structure IsEnd (tail : List Char) : Prop where
  closes : ∃ rest, tail = ')' :: rest
  unquoted : '"' ∉ tail
  undotted : '.' ∉ tail
  oneLine : ∀ c ∈ tail, !(c = '\n' || c = '\r')

namespace IsEnd

variable {tail : List Char}

/-- What is taken from the front of a text, as long as a property holds that the closing bracket
does not have, is taken before what is pasted behind. -/
theorem takeWhile_append (h : IsEnd tail) {p : Char → Bool} (hp : p ')' = false)
    (cs : List Char) : (cs ++ tail).takeWhile p = cs.takeWhile p := by
  obtain ⟨rest, rfl⟩ := h.closes
  rw [List.takeWhile_append]
  split
  · next hall =>
    have hwhole : cs.takeWhile p = cs :=
      (List.takeWhile_prefix p).eq_of_length hall
    simp [hp, hwhole]
  · rfl

/-- What is left when this is dropped has the pasted text behind it. -/
theorem dropWhile_append (h : IsEnd tail) {p : Char → Bool} (hp : p ')' = false)
    (cs : List Char) : (cs ++ tail).dropWhile p = cs.dropWhile p ++ tail := by
  obtain ⟨rest, rfl⟩ := h.closes
  rw [List.dropWhile_append]
  split
  · next hall =>
    rw [List.isEmpty_iff.1 hall]
    simp [hp]
  · rfl

/-- A word in front of an end is the same word without it.  Quoted texts and blocks stop at a
quote, which an end has none of, names and numerals stop at the bracket, and the three dots stand
together. -/
theorem word?_append (h : IsEnd tail) {cs rest : List Char} {t : Token} (hne : cs ≠ [])
    (hword : word? (cs ++ tail) = some (t, rest)) :
    ∃ r, rest = r ++ tail ∧ word? cs = some (t, r) := by
  generalize hx : cs ++ tail = x at hword
  unfold word? at hword
  split at hword
  · simp at hword
  · next more =>
    -- a block of text
    obtain ⟨⟨out, rest'⟩, hblock, hword⟩ := Option.bind_eq_some_iff.1 hword
    obtain ⟨rfl, rfl⟩ := by simpa using hword
    obtain ⟨used, rfl, hused⟩ := exists_of_blockRest hblock
    obtain ⟨r, rfl, rfl⟩ := exists_of_append_cons_eq
      ('"' :: '"' :: '"' :: (used ++ ['"', '"'])) (by simpa using hx.symm) h.unquoted
    exact ⟨r, rfl, by simp [word?, hused]⟩
  · next more hno =>
    -- a quoted text
    obtain ⟨⟨out, rest'⟩, hquoted, hword⟩ := Option.bind_eq_some_iff.1 hword
    obtain ⟨rfl, rfl⟩ := by simpa using hword
    obtain ⟨used, rfl, hused⟩ := exists_of_quotedRest hquoted
    obtain ⟨r, rfl, rfl⟩ := exists_of_append_cons_eq ('"' :: used) hx.symm h.unquoted
    refine ⟨r, rfl, ?_⟩
    rw [List.cons_append, word?]
    · simp [hused]
    · intro more hmore
      exact hno (more ++ tail) (by simpa using congrArg (· ++ tail) hmore)
  · next more =>
    obtain ⟨rfl, rfl⟩ := by simpa using hword
    obtain ⟨r, rfl, rfl⟩ :=
      exists_of_append_cons_eq ['.', '.'] hx.symm h.undotted
    exact ⟨r, rfl, rfl⟩
  · next c more hblock hquote hdots =>
    obtain ⟨c', r, rfl⟩ := List.exists_cons_of_ne_nil hne
    rw [List.cons_append] at hx
    obtain ⟨rfl, rfl⟩ := List.cons.inj hx
    have hplain : ∀ p : Char → Bool, p ')' = false →
        (r ++ tail).takeWhile p = r.takeWhile p ∧ (r ++ tail).dropWhile p = r.dropWhile p ++ tail :=
      fun p hp => ⟨h.takeWhile_append hp r, h.dropWhile_append hp r⟩
    obtain ⟨hname, hafter⟩ := hplain isNamePart (by decide)
    obtain ⟨hnumeral, hbehind⟩ := hplain (fun c => !endsNumeral c) (by decide)
    rw [hname, hafter, hnumeral, hbehind] at hword
    rw [word?]
    · split at hword
      · obtain ⟨rfl, rfl⟩ := by simpa using hword
        exact ⟨r, rfl, by simp⟩
      · obtain ⟨rfl, rfl⟩ := by simpa using hword
        exact ⟨r, rfl, by simp⟩
      · split at hword
        · next hmark =>
          obtain ⟨rfl, rfl⟩ := by simpa using hword
          exact ⟨r, rfl, by simp [hmark]⟩
        · next hmark =>
          split at hword
          · next hstart =>
            obtain ⟨rfl, rfl⟩ := by simpa using hword
            exact ⟨_, rfl, by simp [hmark, hstart]⟩
          · next hstart =>
            split at hword
            · next hdigit =>
              obtain ⟨token, htoken, hword⟩ := Option.bind_eq_some_iff.1 hword
              obtain ⟨rfl, rfl⟩ := by simpa using hword
              exact ⟨_, rfl, by simp [hmark, hstart, hdigit, htoken]⟩
            · simp at hword
    · exact fun more hc hmore => hblock (more ++ tail) hc (by rw [hmore]; rfl)
    · exact hquote
    · exact fun more hc hmore => hdots (more ++ tail) hc (by rw [hmore]; rfl)

/-- **The words of a text are found again in front of an end**, which is read whole, or swallowed
whole by a comment. -/
theorem tokens?_append (h : IsEnd tail) {cs : List Char} {ts : List Token}
    (hts : tokens? (cs ++ tail) = some ts) :
    ∃ front, tokens? cs = some front ∧
      (ts = front ∨ ∃ behind, tokens? tail = some behind ∧ ts = front ++ behind) := by
  induction hn : cs.length using Nat.strong_induction_on generalizing cs ts with
  | _ n ih =>
    subst hn
    cases cs with
    | nil => exact ⟨[], rfl, Or.inr ⟨ts, hts, rfl⟩⟩
    | cons c rest =>
        rw [List.cons_append, tokens?_cons] at hts
        rw [tokens?_cons]
        by_cases hignored : isIgnored c = true
        · rw [if_pos hignored] at hts ⊢
          exact ih rest.length (by simp) hts rfl
        · rw [if_neg hignored] at hts ⊢
          by_cases hcomment : c = '#'
          · rw [if_pos hcomment] at hts ⊢
            rw [List.dropWhile_append] at hts
            split at hts
            · next hempty =>
              -- the comment runs to the end of the text, and takes the end with it
              rw [List.isEmpty_iff.1 hempty]
              rw [List.dropWhile_eq_nil_iff.2 h.oneLine] at hts
              exact ⟨ts, hts, Or.inl rfl⟩
            · have hle := (List.dropWhile_suffix
                (l := rest) fun c => !(c = '\n' || c = '\r')).length_le
              exact ih _ (Nat.lt_succ_of_le hle) hts rfl
          · rw [if_neg hcomment] at hts ⊢
            obtain ⟨⟨t, rest'⟩, hword, hts⟩ := Option.bind_eq_some_iff.1 hts
            obtain ⟨more, hmore, rfl⟩ := Option.map_eq_some_iff.1 hts
            obtain ⟨r, rfl, hfront⟩ := h.word?_append (List.cons_ne_nil c rest) hword
            have hlt : r.length < (c :: rest).length := length_word?_lt hfront
            obtain ⟨front, hr, hcases⟩ := ih r.length hlt hmore rfl
            refine ⟨t :: front, by simp [hfront, hr], ?_⟩
            rcases hcases with rfl | ⟨behind, htail, rfl⟩
            · exact Or.inl rfl
            · exact Or.inr ⟨behind, htail, rfl⟩

end IsEnd

end GraphWarden.Graphql
