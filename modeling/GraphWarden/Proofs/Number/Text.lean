import GraphWarden.Number.Layout
import GraphWarden.Proofs.Number.Shortest

/-!
# What a number's text says

A data text is laid out with the point inside the digits or with an exponent.  `textValue`
reads either layout as the rational number that it stands for, and of every laid out decimal
it reads the decimal's own value.  Since that value names the number, two finite numbers with
one text are the same number (`dataText_inj`); the two zeros differ in their signs.
-/

namespace GraphWarden

/-! ### Digits -/

/-- Nothing but decimal digits. -/
def AllDigits (cs : List Char) : Prop :=
  ∀ c ∈ cs, c.isDigit = true

namespace AllDigits

variable {cs ds : List Char}

theorem append (hc : AllDigits cs) (hd : AllDigits ds) : AllDigits (cs ++ ds) := by
  intro c hmem
  rcases List.mem_append.1 hmem with h | h
  · exact hc c h
  · exact hd c h

theorem toDigits (n : Nat) : AllDigits (Nat.toDigits 10 n) :=
  fun _ h => Nat.isDigit_of_mem_toDigits (by decide) (by decide) h

theorem zeros (n : Nat) : AllDigits (List.replicate n '0') := by
  intro c h
  rw [List.eq_of_mem_replicate h]
  decide

theorem take (h : AllDigits cs) (n : Nat) : AllDigits (cs.take n) :=
  fun c hc => h c (List.mem_of_mem_take hc)

theorem drop (h : AllDigits cs) (n : Nat) : AllDigits (cs.drop n) :=
  fun c hc => h c (List.mem_of_mem_drop hc)

/-- No other character is among digits, and so a point or an exponent can be found in a text. -/
theorem not_mem (h : AllDigits cs) {c : Char} (hc : c.isDigit = false) : c ∉ cs := by
  intro hmem
  rw [h c hmem] at hc
  cases hc

end AllDigits

/-! ### Reading a text -/

/-- What stands before the first mark, and what stands after it. -/
def cutAt (mark : Char) : List Char → List Char × List Char
  | [] => ([], [])
  | c :: cs => if c = mark then ([], cs) else (c :: (cutAt mark cs).1, (cutAt mark cs).2)

/-- A text is cut at the first mark in it, when the mark is not in front of it already. -/
theorem cutAt_append {mark : Char} {front : List Char} (h : mark ∉ front) (back : List Char) :
    cutAt mark (front ++ mark :: back) = (front, back) := by
  induction front with
  | nil => simp [cutAt]
  | cons c front ih =>
      obtain ⟨hc, hfront⟩ := not_or.1 (mt List.mem_cons.2 h)
      simp [cutAt, Ne.symm hc, ih hfront]

/-- A text without the mark is not cut. -/
theorem cutAt_of_not_mem {mark : Char} {cs : List Char} (h : mark ∉ cs) :
    cutAt mark cs = (cs, []) := by
  induction cs with
  | nil => rfl
  | cons c cs ih =>
      obtain ⟨hc, hcs⟩ := not_or.1 (mt List.mem_cons.2 h)
      simp [cutAt, Ne.symm hc, ih hcs]

/-- The number of digits before and after a point. -/
def pointValue (whole fraction : List Char) : ℚ :=
  Nat.ofDigitChars 10 (whole ++ fraction) 0 * 10 ^ (-(fraction.length : Int))

/-- The number of an exponent with its sign. -/
def powerValue : List Char → Int
  | [] => 0
  | c :: ds => if c = '-' then -Nat.ofDigitChars 10 ds 0 else Nat.ofDigitChars 10 ds 0

/-- The number of a text without a sign. -/
def textValue (cs : List Char) : ℚ :=
  pointValue (cutAt '.' (cutAt 'e' cs).1).1 (cutAt '.' (cutAt 'e' cs).1).2
    * 10 ^ powerValue (cutAt 'e' cs).2

/-- A text with a point inside its digits reads as what its two sides say. -/
theorem textValue_point {whole fraction : List Char} (hwhole : AllDigits whole)
    (hfraction : AllDigits fraction) :
    textValue (whole ++ '.' :: fraction) = pointValue whole fraction := by
  have hpower : 'e' ∉ whole ++ '.' :: fraction := by
    simp [hwhole.not_mem, hfraction.not_mem]
  unfold textValue
  rw [cutAt_of_not_mem hpower, cutAt_append (hwhole.not_mem (by decide))]
  simp [powerValue]

/-- A text with an exponent reads as what stands in front of it, moved by that power of ten.  The
fraction may be missing there. -/
theorem textValue_power {whole fraction : List Char} (hwhole : AllDigits whole)
    (hfraction : AllDigits fraction) (power : List Char) :
    textValue ((whole ++ if fraction = [] then [] else '.' :: fraction) ++ 'e' :: power)
      = pointValue whole fraction * 10 ^ powerValue power := by
  have hpoint : 'e' ∉ whole ++ if fraction = [] then [] else '.' :: fraction := by
    split <;> simp [hwhole.not_mem, hfraction.not_mem]
  unfold textValue
  rw [cutAt_append hpoint]
  split
  · next h =>
      rw [List.append_nil, cutAt_of_not_mem (hwhole.not_mem (by decide)), h]
  · rw [cutAt_append (hwhole.not_mem (by decide))]

/-! ### Layouts of a decimal -/

namespace Decimal

theorem digitsText (n : Nat) : (toString n).toList = Nat.toDigits 10 n := by
  rw [Nat.toString_eq_ofList_toDigits, String.toList_ofList]

/-- A point somewhere between the digits. -/
theorem pointValue_of_split {d : Decimal} {whole fraction : List Char} (zeros : Nat)
    (hdigits : whole ++ fraction = List.replicate zeros '0' ++ Nat.toDigits 10 d.digits)
    (hplaces : d.exponent = -(fraction.length : Int)) : pointValue whole fraction = d.value := by
  unfold pointValue value
  rw [hdigits, Nat.ofDigitChars_append, Nat.ofDigitChars_replicate_zero, mul_zero,
    Nat.ofDigitChars_ten_toDigits, hplaces]

/-- A fraction is shown also where there is none. -/
def shownFraction (fraction : List Char) : List Char :=
  if fraction = [] then ['0'] else fraction

/-- A fraction is shown in digits, and at least one of them. -/
theorem allDigits_shownFraction {fraction : List Char} (h : AllDigits fraction) :
    AllDigits (shownFraction fraction) := by
  unfold shownFraction
  split
  · exact AllDigits.zeros 1
  · exact h

/-- A fraction is never left empty: where there is none, a zero is shown. -/
theorem toList_shownFraction (s : String) :
    (if s.isEmpty then "0" else s).toList = shownFraction s.toList := by
  unfold shownFraction
  by_cases h : s = ""
  · subst h
    rfl
  · rw [if_neg (mt String.isEmpty_iff.1 h), if_neg (mt String.toList_eq_nil_iff.1 h)]

/-- The layout without an exponent: both sides of the point are digits, there is one in front of
it, and together they say the decimal's value.  The point stands behind the digits, among them, or
in front of zeros that fill its places. -/
theorem positional_spec (d : Decimal) :
    AllDigits d.positional.1.toList ∧ AllDigits d.positional.2.toList ∧
      d.positional.1.toList ≠ [] ∧
      pointValue d.positional.1.toList (shownFraction d.positional.2.toList) = d.value := by
  have hall := AllDigits.toDigits d.digits
  have hpos : 0 < (Nat.toDigits 10 d.digits).length := Nat.length_toDigits_pos
  unfold positional zeros
  simp only [digitsText]
  split
  · next he =>
      obtain ⟨n, hn⟩ := Int.eq_ofNat_of_zero_le he
      simp only [String.toList_append, String.toList_ofList, hn, Int.toNat_natCast]
      refine ⟨hall.append (AllDigits.zeros n), by simp [AllDigits], by simp, ?_⟩
      -- the digit after the point is the last of the zeros
      have hvalue : Nat.ofDigitChars 10
          (Nat.toDigits 10 d.digits ++ List.replicate n '0' ++ List.replicate 1 '0') 0
          = d.digits * 10 ^ n * 10 := by
        simp only [Nat.ofDigitChars_append, Nat.ofDigitChars_ten_toDigits,
          Nat.ofDigitChars_replicate_zero]
        ring
      have hshown : shownFraction "".toList = List.replicate 1 '0' := rfl
      unfold pointValue value
      rw [hshown, hvalue, hn]
      simp
  · next he =>
      obtain ⟨n, hn⟩ := Int.exists_eq_neg_ofNat (not_le.1 he).le
      have hn' : (-d.exponent).toNat = n := by omega
      simp only [hn']
      split
      · next hlt =>
          simp only [String.toList_ofList]
          refine ⟨hall.take _, hall.drop _, ?_, ?_⟩
          · simp
            omega
          · have hshown : List.drop ((Nat.toDigits 10 d.digits).length - n)
                (Nat.toDigits 10 d.digits) ≠ [] := by
              simp
              omega
            rw [shownFraction, if_neg hshown]
            refine pointValue_of_split 0 (by simp) ?_
            rw [hn, List.length_drop]
            omega
      · next hge =>
          simp only [String.toList_ofList, String.toList_append]
          refine ⟨AllDigits.zeros 1, (AllDigits.zeros _).append hall, by decide, ?_⟩
          rw [shownFraction, if_neg (by simp)]
          refine pointValue_of_split (n - (Nat.toDigits 10 d.digits).length + 1) ?_ ?_
          · rw [List.replicate_succ]
            rfl
          · rw [hn, List.length_append, List.length_replicate]
            omega

/-- An exponent with its sign. -/
def signedPower (power : Int) : List Char :=
  (if power < 0 then '-' else '+') :: Nat.toDigits 10 power.natAbs

/-- The sign of an exponent is always shown and is read back with it. -/
theorem powerValue_signedPower (power : Int) : powerValue (signedPower power) = power := by
  simp only [signedPower, powerValue, Nat.ofDigitChars_ten_toDigits]
  by_cases h : power < 0
  · rw [if_pos h, if_pos rfl]
    omega
  · rw [if_neg h, if_neg (by decide)]
    omega

/-- The layout with an exponent. -/
theorem toList_scientific (d : Decimal) :
    d.scientific.toList =
      ((Nat.toDigits 10 d.digits).take 1 ++
        if (Nat.toDigits 10 d.digits).drop 1 = [] then []
        else '.' :: (Nat.toDigits 10 d.digits).drop 1) ++ 'e' :: signedPower d.leading := by
  have hfraction : ∀ cs : List Char,
      (if cs.isEmpty then "" else "." ++ String.ofList cs).toList
        = if cs = [] then [] else '.' :: cs := by
    intro cs
    cases cs <;> simp
  have hsign : (if d.leading < 0 then "-" else "+").toList
      = [if d.leading < 0 then '-' else '+'] := by
    split <;> rfl
  unfold scientific signedPower
  simp only [digitsText, String.toList_append, String.toList_ofList, hfraction, hsign,
    List.append_assoc]
  rfl

/-- A decimal with an exponent reads as its own value, however many digits there are behind the
first. -/
theorem textValue_scientific (d : Decimal) : textValue d.scientific.toList = d.value := by
  have hall := AllDigits.toDigits d.digits
  have hpos : 0 < (Nat.toDigits 10 d.digits).length := Nat.length_toDigits_pos
  have hleading : -(((Nat.toDigits 10 d.digits).length - 1 : Nat) : Int) + d.leading
      = d.exponent := by
    unfold leading
    rw [Nat.toString_eq_ofList_toDigits, String.length_ofList]
    omega
  rw [toList_scientific, textValue_power (hall.take 1) (hall.drop 1), powerValue_signedPower]
  unfold pointValue value
  rw [List.take_append_drop, Nat.ofDigitChars_ten_toDigits, List.length_drop, mul_assoc,
    ← zpow_add₀ (by norm_num), hleading]

end Decimal

/-! ### The text of a number -/

/-- A character of a numeral. -/
def IsNumeral (c : Char) : Prop :=
  c.isDigit = true ∨ c = '-' ∨ c = '+' ∨ c = '.' ∨ c = 'e'

instance (c : Char) : Decidable (IsNumeral c) :=
  inferInstanceAs (Decidable (_ ∨ _))

namespace Binary64

variable {x y : Binary64}

/-- The text of a magnitude. -/
def magnitudeText (x : Binary64) : List Char :=
  if x.isZero then ['0', '.', '0']
  else if -5 ≤ x.shortest.leading && x.shortest.leading < 16 then
    x.shortest.positional.1.toList ++ '.' :: Decimal.shownFraction x.shortest.positional.2.toList
  else x.shortest.scientific.toList

/-- A finite number is written as its sign and the text of its magnitude. -/
theorem toList_dataText (hfinite : x.isFinite = true) :
    x.dataText.toList = (if x.negative then ['-'] else []) ++ x.magnitudeText := by
  have hsign : (if x.negative then "-" else "").toList = if x.negative then ['-'] else [] := by
    split <;> rfl
  have hpoint : ".".toList = ['.'] := rfl
  unfold dataText magnitudeText
  simp only [hfinite, Bool.not_true, Bool.false_eq_true, if_false]
  split
  · simp only [String.toList_append, hsign]
    rfl
  · split
    · simp only [String.toList_append, hsign, hpoint, Decimal.toList_shownFraction,
        List.append_assoc, List.cons_append, List.nil_append]
    · rw [String.toList_append, hsign]

/-- A text of digits with a point between them or an exponent after them. -/
def Laid (text : List Char) : Prop :=
  ∃ whole fraction, whole ≠ [] ∧ AllDigits whole ∧ AllDigits fraction ∧
    (text = whole ++ '.' :: fraction ∨
      ∃ power, text =
        (whole ++ if fraction = [] then [] else '.' :: fraction) ++ 'e' :: Decimal.signedPower power)

/-- A magnitude is laid out in one of the two ways, with a point or with an exponent, and begins
with a digit in both. -/
theorem laid_magnitudeText (x : Binary64) : Laid x.magnitudeText := by
  unfold magnitudeText
  split
  · exact ⟨['0'], ['0'], by decide, AllDigits.zeros 1, AllDigits.zeros 1, Or.inl rfl⟩
  · split
    · obtain ⟨hwhole, hfraction, hnonempty, _⟩ := x.shortest.positional_spec
      exact ⟨_, _, hnonempty, hwhole, Decimal.allDigits_shownFraction hfraction, Or.inl rfl⟩
    · have hall := AllDigits.toDigits x.shortest.digits
      refine ⟨_, _, ?_, hall.take 1, hall.drop 1, Or.inr ⟨_, x.shortest.toList_scientific⟩⟩
      simp [Nat.toDigits_ne_nil]

namespace Laid

variable {text : List Char}

/-- A laid out text begins with a digit. -/
theorem head (h : Laid text) : ∃ c rest, text = c :: rest ∧ c.isDigit = true := by
  obtain ⟨whole, fraction, hnonempty, hwhole, _, hlayout⟩ := h
  obtain ⟨c, rest, rfl⟩ := List.exists_cons_of_ne_nil hnonempty
  have hdigit := hwhole c List.mem_cons_self
  rcases hlayout with rfl | ⟨power, rfl⟩
  · exact ⟨c, _, rfl, hdigit⟩
  · exact ⟨c, _, rfl, hdigit⟩

/-- A laid out text consists of characters of a numeral. -/
theorem isNumeral (h : Laid text) {c : Char} (hc : c ∈ text) : IsNumeral c := by
  obtain ⟨whole, fraction, _, hwhole, hfraction, hlayout⟩ := h
  have hpower : ∀ power, c ∈ Decimal.signedPower power → IsNumeral c := by
    intro power hmem
    rcases List.mem_cons.1 hmem with rfl | hmem
    · split <;> decide
    · exact Or.inl (AllDigits.toDigits _ c hmem)
  rcases hlayout with rfl | ⟨power, rfl⟩
  · rcases List.mem_append.1 hc with hc | hc
    · exact Or.inl (hwhole c hc)
    · rcases List.mem_cons.1 hc with rfl | hc
      · decide
      · exact Or.inl (hfraction c hc)
  · rcases List.mem_append.1 hc with hc | hc
    · rcases List.mem_append.1 hc with hc | hc
      · exact Or.inl (hwhole c hc)
      · split at hc
        · cases hc
        · rcases List.mem_cons.1 hc with rfl | hc
          · decide
          · exact Or.inl (hfraction c hc)
    · rcases List.mem_cons.1 hc with rfl | hc
      · decide
      · exact hpower power hc

/-- A layout is not a mere run of digits. -/
theorem mark (h : Laid text) : '.' ∈ text ∨ 'e' ∈ text := by
  obtain ⟨whole, fraction, _, _, _, rfl | ⟨power, rfl⟩⟩ := h
  · simp
  · simp

end Laid

/-- The text of a finite number has only characters of a numeral, sign and all. -/
theorem isNumeral_of_mem_dataText (hfinite : x.isFinite = true) {c : Char}
    (h : c ∈ x.dataText.toList) : IsNumeral c := by
  rw [toList_dataText hfinite] at h
  rcases List.mem_append.1 h with h | h
  · split at h
    · rw [List.mem_singleton.1 h]
      decide
    · cases h
  · exact x.laid_magnitudeText.isNumeral h

/-- The text of a magnitude says what the number is. -/
theorem magnitudeText_spec (hfinite : x.isFinite = true) :
    (x.rank = 0 ∧ textValue x.magnitudeText = 0) ∨ Named (textValue x.magnitudeText) x := by
  have hbelow : x.rank < infinityRank := of_decide_eq_true hfinite
  unfold magnitudeText
  by_cases hzero : x.isZero = true
  · have hvalue : textValue (['0'] ++ '.' :: ['0']) = 0 :=
      (textValue_point (AllDigits.zeros 1) (AllDigits.zeros 1)).trans (zero_mul _)
    rw [if_pos hzero]
    exact Or.inl ⟨beq_iff_eq.1 hzero, hvalue⟩
  · have hpositive : x.rank ≠ 0 := fun h => hzero (beq_iff_eq.2 h)
    have hnamed := shortest_named hbelow hpositive
    rw [if_neg hzero]
    refine Or.inr ?_
    split
    · obtain ⟨hwhole, hfraction, _, hvalue⟩ := x.shortest.positional_spec
      rw [textValue_point hwhole (Decimal.allDigits_shownFraction hfraction), hvalue]
      exact hnamed
    · rw [Decimal.textValue_scientific]
      exact hnamed

/-- Signs and magnitudes are told apart: only a sign starts with a minus. -/
theorem eq_of_signed_text {b b' : Bool} {text text' : List Char} (hlaid : Laid text)
    (hlaid' : Laid text')
    (h : (if b then ['-'] else []) ++ text = (if b' then ['-'] else []) ++ text') :
    b = b' ∧ text = text' := by
  obtain ⟨c, rest, rfl, hc⟩ := hlaid.head
  obtain ⟨d, rest', rfl, hd⟩ := hlaid'.head
  have hminus : '-'.isDigit = false := by decide
  cases b <;> cases b'
  · exact ⟨rfl, h⟩
  · rw [(List.cons.inj h).1, hminus] at hc
    cases hc
  · rw [← (List.cons.inj h).1, hminus] at hd
    cases hd
  · exact ⟨rfl, (List.cons.inj h).2⟩

/-- A number is its sign and its rank. -/
theorem eq_of_rank (hnegative : x.negative = y.negative) (hrank : x.rank = y.rank) : x = y := by
  cases x
  cases y
  simp only at hnegative hrank
  subst hnegative hrank
  rfl

/-- **Two finite numbers with one text are the same number.** -/
theorem dataText_inj (hx : x.isFinite = true) (hy : y.isFinite = true)
    (h : x.dataText = y.dataText) : x = y := by
  have htext : (if x.negative then ['-'] else []) ++ x.magnitudeText
      = (if y.negative then ['-'] else []) ++ y.magnitudeText := by
    rw [← toList_dataText hx, ← toList_dataText hy, h]
  obtain ⟨hnegative, hsame⟩ :=
    eq_of_signed_text x.laid_magnitudeText y.laid_magnitudeText htext
  have hvalue := magnitudeText_spec hy
  rw [← hsame] at hvalue
  refine eq_of_rank hnegative ?_
  rcases magnitudeText_spec hx with ⟨hxrank, hxzero⟩ | hxnamed
  · rcases hvalue with ⟨hyrank, _⟩ | hynamed
    · rw [hxrank, hyrank]
    · exact absurd hxzero hynamed.pos.ne'
  · rcases hvalue with ⟨_, hyzero⟩ | hynamed
    · exact absurd hyzero hxnamed.pos.ne'
    · exact hxnamed.unique hynamed

end Binary64

end GraphWarden
