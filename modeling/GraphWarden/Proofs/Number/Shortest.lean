import GraphWarden.Number.Shortest
import GraphWarden.Proofs.Number.Nearest

/-!
# The shortest decimal names its number

A decimal stands for a rational number, `Decimal.value`.  It **names** the binary64 number
to which that rational number rounds.  On the grid of seventeen digits the nearest decimal
always names the number it was taken for, because two neighbours of that grid are closer
together than the number's part by `2 ^ 53`; so the search for the shortest decimal ends, and
what it ends with names the number (`shortest_named`).
-/

namespace GraphWarden

namespace Decimal

/-- The rational number that a decimal stands for. -/
def value (d : Decimal) : ℚ :=
  d.digits * 10 ^ d.exponent

/-- Zeros at the end of the digits do not count. -/
theorem value_normalized (fuel : Nat) (d : Decimal) : (d.normalized fuel).value = d.value := by
  induction fuel generalizing d with
  | zero => rfl
  | succ fuel ih =>
      unfold normalized
      split
      · next h =>
          have hten : d.digits = 10 * (d.digits / 10) := by omega
          have hcast : (d.digits : ℚ) = 10 * ((d.digits / 10 : Nat) : ℚ) := by exact_mod_cast hten
          rw [ih]
          simp only [value]
          rw [hcast, zpow_add_one₀ (by norm_num)]
          ring
      · rfl

end Decimal

namespace Binary64

variable {x : Binary64}

theorem ten_zpow_pos (k : Int) : (0 : ℚ) < 10 ^ k :=
  zpow_pos (by norm_num) k

/-- A power of two is at most the power of ten with a third of its exponent, since eight is less
than ten. -/
theorem two_pow_le_ten_pow {n k : Nat} (h : n ≤ 3 * k) : (2 : ℚ) ^ n ≤ 10 ^ k := by
  calc (2 : ℚ) ^ n ≤ 2 ^ (3 * k) := pow_le_pow_right₀ (by norm_num) h
    _ = 8 ^ k := by rw [pow_mul]; norm_num
    _ ≤ 10 ^ k := pow_le_pow_left₀ (by norm_num) (by norm_num) k

/-! ### Names -/

/-- The value rounds to the magnitude of the number. -/
def Named (value : ℚ) (x : Binary64) : Prop :=
  ∃ num den : Nat, num ≠ 0 ∧ den ≠ 0 ∧ (num : ℚ) / den = value ∧ nearestRank num den = x.rank

/-- A value names one magnitude. -/
theorem Named.unique {value : ℚ} {y : Binary64} (hx : Named value x) (hy : Named value y) :
    x.rank = y.rank := by
  obtain ⟨num, den, hnum, hden, hvalue, hrank⟩ := hx
  obtain ⟨num', den', hnum', hden', hvalue', hrank'⟩ := hy
  rw [← hrank, ← hrank', nearestRank_congr hnum hden hnum' hden' (hvalue.trans hvalue'.symm)]

/-- What names a number is positive, because zero and what is below it name none. -/
theorem Named.pos {value : ℚ} (h : Named value x) : 0 < value := by
  obtain ⟨num, den, hnum, hden, rfl, _⟩ := h
  have hnum' : (0 : ℚ) < num := by exact_mod_cast Nat.pos_of_ne_zero hnum
  have hden' : (0 : ℚ) < den := by exact_mod_cast Nat.pos_of_ne_zero hden
  exact div_pos hnum' hden'

theorem nearestRank_le (num den : Nat) : nearestRank num den ≤ infinityRank := by
  unfold nearestRank
  split
  · exact Nat.zero_le _
  · exact Nat.min_le_right _ _

/-- Rounding a quotient gives the number of the nearest rank, and the sign makes no difference to
it. -/
theorem ofRatio_rank (negative : Bool) (num den : Nat) :
    (ofRatio negative num den).rank = nearestRank num den :=
  min_eq_left (nearestRank_le num den)

/-- Within the range where the power of ten is computed, a decimal is rounded exactly. -/
theorem ofDecimal_rank {d : Decimal} (hdigits : d.digits ≠ 0) (hhigh : d.exponent ≤ 400)
    (hlow : -(Nat.log2 d.digits : Int) - 400 ≤ d.exponent) :
    ∃ num den : Nat, num ≠ 0 ∧ den ≠ 0 ∧ (num : ℚ) / den = d.value ∧
      (ofDecimal false d.digits d.exponent).rank = nearestRank num den := by
  unfold ofDecimal Decimal.value
  rw [if_neg hdigits, if_neg (not_lt.2 hhigh), if_neg (not_lt.2 hlow)]
  generalize d.digits = digits at hdigits
  generalize d.exponent = exponent
  by_cases hexponent : 0 ≤ exponent
  · obtain ⟨n, rfl⟩ := Int.eq_ofNat_of_zero_le hexponent
    rw [if_pos hexponent]
    refine ⟨_, _, ?_, ?_, ?_, ofRatio_rank _ _ _⟩
    · exact Nat.mul_ne_zero hdigits (pow_ne_zero n (by norm_num))
    · exact one_ne_zero
    · simp
  · obtain ⟨n, rfl⟩ := Int.exists_eq_neg_ofNat (not_le.1 hexponent).le
    rw [if_neg hexponent]
    refine ⟨_, _, hdigits, ?_, ?_, ofRatio_rank _ _ _⟩
    · exact pow_ne_zero _ (by norm_num)
    · simp [div_eq_mul_inv]

/-- What reads back names the number: the shortcuts far outside the range of the format read
nothing back but zero and infinity. -/
theorem named_of_readsBack (hfinite : x.rank < infinityRank) (hpositive : x.rank ≠ 0)
    {d : Decimal} (h : x.readsBack d = true) : Named d.value x := by
  have hread : (ofDecimal false d.digits d.exponent).rank = x.rank := by
    simpa [readsBack] using h
  by_cases hdigits : d.digits = 0
  · rw [ofDecimal, if_pos hdigits] at hread
    exact absurd hread.symm hpositive
  by_cases hhigh : 400 < d.exponent
  · rw [ofDecimal, if_neg hdigits, if_pos hhigh] at hread
    have hinfinite : infinityRank = x.rank := by simpa [ofRank] using hread
    omega
  by_cases hlow : d.exponent < -(Nat.log2 d.digits : Int) - 400
  · rw [ofDecimal, if_neg hdigits, if_neg hhigh, if_pos hlow] at hread
    exact absurd hread.symm hpositive
  obtain ⟨num, den, hnum, hden, hvalue, hrank⟩ :=
    ofDecimal_rank hdigits (not_lt.1 hhigh) (not_lt.1 hlow)
  exact ⟨num, den, hnum, hden, hvalue, hrank.symm.trans hread⟩

/-! ### The leading digit -/

/-- The numbers of the format lie between `2 ^ -1074` and `2 ^ 1024`. -/
theorem magnitude_bounds (hfinite : x.rank < infinityRank) (hpositive : x.rank ≠ 0) :
    (2 : ℚ) ^ (-1074 : Int) ≤ x.magnitude ∧ x.magnitude < 2 ^ (1024 : Int) := by
  obtain ⟨hsmall, hleast, hnormal, hrank⟩ := x.scaled_spec
  have htop : infinityRank = 2047 * 2 ^ 52 := by decide
  have hdigits : 1 ≤ x.scaled.1 := by
    have hpos := magnitude_pos hpositive
    unfold magnitude at hpos
    have hcast : (0 : ℚ) < x.scaled.1 := pos_of_mul_pos_left hpos (two_zpow_pos _).le
    exact_mod_cast hcast
  have hscale : x.scaled.2 ≤ 971 := by omega
  have hdigits' : (1 : ℚ) ≤ x.scaled.1 := by exact_mod_cast hdigits
  have hsmall' : (x.scaled.1 : ℚ) < 2 ^ (53 : Int) := by exact_mod_cast hsmall
  unfold magnitude
  constructor
  · calc (2 : ℚ) ^ (-1074 : Int) ≤ 2 ^ x.scaled.2 :=
          zpow_le_zpow_right₀ (by norm_num) hleast
      _ ≤ x.scaled.1 * 2 ^ x.scaled.2 := le_mul_of_one_le_left (two_zpow_pos _).le hdigits'
  · calc x.scaled.1 * (2 : ℚ) ^ x.scaled.2 < 2 ^ (53 : Int) * 2 ^ x.scaled.2 :=
          mul_lt_mul_of_pos_right hsmall' (two_zpow_pos _)
      _ ≤ 2 ^ (53 : Int) * 2 ^ (971 : Int) :=
          mul_le_mul_of_nonneg_left (zpow_le_zpow_right₀ (by norm_num) hscale) (two_zpow_pos _).le
      _ = 2 ^ (1024 : Int) := by rw [← zpow_add₀ (by norm_num)]; rfl

/-- The text of a positive natural has no more digits than it needs. -/
theorem pow_length_le {n : Nat} (hn : 0 < n) : 10 ^ ((toString n).length - 1) ≤ n := by
  rw [Nat.toString_eq_ofList_toDigits, String.length_ofList]
  generalize hk : (Nat.toDigits 10 n).length - 1 = k
  rcases Nat.eq_zero_or_pos k with rfl | hpos
  · exact hn
  · by_contra hlt
    have := (Nat.length_toDigits_le_iff (by decide : 1 < 10) hpos).2 (not_le.1 hlt)
    omega

/-- The leading exponent is one that the number reaches.  From one on it counts the digits of the
whole part; below one it is searched for among so many places that the least number of the format
is reached. -/
theorem leadingExponent_spec {num den : Nat} (hden : den ≠ 0)
    (hlow : (2 : ℚ) ^ (-1074 : Int) ≤ num / den) :
    (10 : ℚ) ^ leadingExponent num den ≤ num / den ∧ -400 < leadingExponent num den := by
  have hden' : (0 : ℚ) < den := by exact_mod_cast Nat.pos_of_ne_zero hden
  unfold leadingExponent
  split
  · next hle =>
      have hquotient : 0 < num / den := Nat.div_pos hle (Nat.pos_of_ne_zero hden)
      have hdigits := pow_length_le hquotient
      have hlength : ((toString (num / den)).length : Int) - 1
          = ((toString (num / den)).length - 1 : Nat) := by
        have hpos : 0 < (toString (num / den)).length := by
          rw [Nat.toString_eq_ofList_toDigits, String.length_ofList]
          exact Nat.length_toDigits_pos
        omega
      refine ⟨?_, by omega⟩
      rw [hlength, zpow_natCast, le_div_iff₀ hden']
      have hmul := Nat.mul_le_of_le_div den _ num hdigits
      exact_mod_cast hmul
  · split
    · next j hfind =>
        have hj := List.find?_some hfind
        have hrange := List.mem_range.1 (List.mem_of_find?_eq_some hfind)
        have hreached : den ≤ num * 10 ^ j := of_decide_eq_true hj
        have hreached' : (den : ℚ) ≤ num * 10 ^ j := by exact_mod_cast hreached
        refine ⟨?_, by omega⟩
        rw [zpow_neg, zpow_natCast, le_div_iff₀ hden', inv_mul_le_iff₀ (by positivity), mul_comm]
        exact hreached'
    · next hnone =>
        -- the least number of the format is above the last power that is tried
        obtain ⟨j, hj, hpower⟩ : ∃ j < 400, (2 : ℚ) ^ 1074 ≤ 10 ^ j :=
          ⟨399, by norm_num, two_pow_le_ten_pow (by norm_num)⟩
        have hmiss := List.find?_eq_none.1 hnone j (List.mem_range.2 hj)
        rw [le_div_iff₀ hden', zpow_neg, inv_mul_le_iff₀ (two_zpow_pos _), zpow_ofNat] at hlow
        have hreached : (den : ℚ) ≤ num * 10 ^ j := by
          calc (den : ℚ) ≤ 2 ^ 1074 * num := hlow
            _ ≤ 10 ^ j * num := mul_le_mul_of_nonneg_right hpower (Nat.cast_nonneg num)
            _ = num * 10 ^ j := mul_comm _ _
        have hreached' : den ≤ num * 10 ^ j := by exact_mod_cast hreached
        exact absurd (decide_eq_true hreached') hmiss

/-! ### The search -/

/-- What is tried first on a grid is the magnitude in units of the grid, rounded. -/
theorem candidates_ne_nil (x : Binary64) (count : Nat) {unit : Int}
    (hunit : leadingExponent x.ratio.1 x.ratio.2 - count + 1 = unit) :
    ∃ num den : Nat, den ≠ 0 ∧ (num : ℚ) / den = x.magnitude / 10 ^ unit ∧
      (x.readsBack ⟨roundHalfEven num den, unit⟩ = true → x.candidates count ≠ []) := by
  obtain ⟨hden, hratio⟩ := x.ratio_eq
  unfold candidates
  generalize x.ratio = ratio at hunit hden hratio
  obtain ⟨num, den⟩ := ratio
  simp only at hunit hden hratio ⊢
  rw [← hratio, hunit]
  by_cases hsign : 0 ≤ unit
  · obtain ⟨n, rfl⟩ := Int.eq_ofNat_of_zero_le hsign
    rw [if_pos hsign]
    refine ⟨num, den * Nat.pow 10 n, ?_, ?_, ?_⟩
    · exact Nat.mul_ne_zero hden (pow_ne_zero n (by norm_num))
    · rw [zpow_natCast, div_div]
      simp
    · exact fun hread => List.ne_nil_of_mem (List.mem_filter.2 ⟨List.mem_cons_self, hread⟩)
  · obtain ⟨n, rfl⟩ := Int.exists_eq_neg_ofNat (not_le.1 hsign).le
    rw [if_neg hsign]
    refine ⟨num * Nat.pow 10 n, den, hden, ?_, ?_⟩
    · rw [zpow_neg, zpow_natCast, div_inv_eq_mul, div_mul_eq_mul_div]
      simp
    · intro hread
      rw [neg_neg, Int.toNat_natCast]
      exact List.ne_nil_of_mem (List.mem_filter.2 ⟨List.mem_cons_self, hread⟩)

/-- **Seventeen digits suffice**: the decimal nearest to a number on the grid of seventeen
digits reads back. -/
theorem readsBack_of_seventeen (hfinite : x.rank < infinityRank) (hpositive : x.rank ≠ 0)
    {unit : Int} (hunit : leadingExponent x.ratio.1 x.ratio.2 - (17 : Nat) + 1 = unit)
    {num den : Nat} (hden : den ≠ 0) (hvalue : (num : ℚ) / den = x.magnitude / 10 ^ unit) :
    x.readsBack ⟨roundHalfEven num den, unit⟩ = true := by
  obtain ⟨hratioDen, hratio⟩ := x.ratio_eq
  obtain ⟨hleast, hgreatest⟩ := magnitude_bounds hfinite hpositive
  obtain ⟨hlead, hleadLow⟩ := leadingExponent_spec hratioDen (hratio.symm ▸ hleast)
  rw [hratio] at hlead
  generalize leadingExponent x.ratio.1 x.ratio.2 = lead at hunit hlead hleadLow
  have hunitPos : (0 : ℚ) < 10 ^ unit := ten_zpow_pos unit
  have hhigh : unit ≤ 400 := by
    have hpower : (10 : ℚ) ^ lead < 10 ^ (400 : Int) := by
      rw [zpow_ofNat] at hgreatest ⊢
      exact lt_of_le_of_lt hlead (hgreatest.trans_le (two_pow_le_ten_pow (by norm_num)))
    have hlt := (zpow_lt_zpow_iff_right₀ (by norm_num : (1 : ℚ) < 10)).1 hpower
    omega
  -- the number has sixteen digits before the last
  have hsixteen : (10 : ℚ) ^ 16 * 10 ^ unit ≤ x.magnitude := by
    have hsum : lead = 16 + unit := by omega
    rwa [hsum, zpow_add₀ (by norm_num), zpow_ofNat] at hlead
  have hround := abs_sub_roundHalfEven_le num (Nat.pos_of_ne_zero hden)
  have hunits : x.magnitude = num / den * 10 ^ unit := by
    rw [hvalue, div_mul_cancel₀ _ hunitPos.ne']
  generalize (num : ℚ) / den = w at hround hunits
  generalize roundHalfEven num den = q at hround ⊢
  have hw : (10 : ℚ) ^ 16 ≤ w := le_of_mul_le_mul_right (hunits ▸ hsixteen) hunitPos
  have hq : 2 ^ 15 ≤ q := by
    have hcast : ((2 ^ 15 : Nat) : ℚ) ≤ q := by
      push_cast
      linarith [(abs_le.1 hround).2]
    exact_mod_cast hcast
  have hpos : q ≠ 0 := (lt_of_lt_of_le (Nat.two_pow_pos 15) hq).ne'
  have hlog : 15 ≤ Nat.log2 q := (Nat.le_log2 hpos).2 hq
  obtain ⟨num', den', hnum', hden', hvalue', hrank⟩ :=
    ofDecimal_rank (d := ⟨q, unit⟩) hpos hhigh (by simp only; omega)
  unfold readsBack
  rw [beq_iff_eq, hrank]
  refine nearestRank_eq_of_near hfinite hnum' hden' ?_
  rw [hvalue', hunits, Decimal.value, ← sub_mul, abs_mul, abs_of_pos hunitPos, abs_sub_comm]
  have hnear : |w - q| * 2 ^ 54 < w := by linarith
  calc |w - q| * 10 ^ unit * 2 ^ 54 = |w - q| * 2 ^ 54 * 10 ^ unit := mul_right_comm _ _ _
    _ < w * 10 ^ unit := mul_lt_mul_of_pos_right hnear hunitPos

/-- Every decimal among the candidates reads back as the number it was taken for.  The others are
dropped when they are found. -/
theorem readsBack_of_mem_candidates {count : Nat} {d : Decimal} (h : d ∈ x.candidates count) :
    x.readsBack d = true :=
  (List.mem_filter.1 h).2

/-- The search ends with a decimal that reads back. -/
theorem shortest_eq (hfinite : x.rank < infinityRank) (hpositive : x.rank ≠ 0) :
    ∃ d, x.readsBack d = true ∧ x.shortest = d.normalized 20 := by
  unfold shortest
  cases hfound : (List.range 17).findSome? fun i => (x.candidates (i + 1)).head? with
  | none =>
      have hmiss := List.findSome?_eq_none_iff.1 hfound 16 (List.mem_range.2 (by norm_num))
      obtain ⟨num, den, hden, hvalue, htried⟩ := candidates_ne_nil x 17 rfl
      exact absurd (List.head?_eq_none_iff.1 hmiss)
        (htried (readsBack_of_seventeen hfinite hpositive rfl hden hvalue))
  | some d =>
      obtain ⟨i, _, hhead⟩ := List.exists_of_findSome?_eq_some hfound
      exact ⟨d, readsBack_of_mem_candidates (List.mem_of_head? hhead), rfl⟩

/-- **The shortest decimal of a number names it.** -/
theorem shortest_named (hfinite : x.rank < infinityRank) (hpositive : x.rank ≠ 0) :
    Named x.shortest.value x := by
  obtain ⟨d, hread, hshortest⟩ := shortest_eq hfinite hpositive
  rw [hshortest, Decimal.value_normalized]
  exact named_of_readsBack hfinite hpositive hread

end Binary64

end GraphWarden
