import Mathlib.Algebra.Order.Field.Power
import Mathlib.Data.Rat.Cast.Order
import Mathlib.Tactic.FieldSimp
import Mathlib.Tactic.Linarith
import Mathlib.Tactic.Positivity
import Mathlib.Tactic.Ring
import GraphWarden.Number.Binary64

/-!
# The nearest binary64 number

Rounding works on a quotient of naturals.  Here it is shown to work on the rational number
that the quotient stands for.

* `nearestRank_congr` — quotients of one value have the same nearest number.
* `nearestRank_lt_infinityRank` — infinity is not near.
* `nearestRank_eq_of_near` — what is nearer to a number than its part by `2 ^ 54` rounds to
  that number.  The gap to the next number is at least twice as wide on either side, also
  where the numbers below a power of two lie closer together than those above it.
-/

namespace GraphWarden.Binary64

/-! ### Rounding a quotient to a natural -/

/-- A quotient rounds to the same natural number when both of its parts are multiplied. -/
theorem roundHalfEven_scale {a b k : Nat} (hk : 0 < k) :
    roundHalfEven (k * a) (k * b) = roundHalfEven a b := by
  unfold roundHalfEven
  simp only [Nat.mul_div_mul_left a b hk, Nat.mul_mod_mul_left]
  have hlow : 2 * (k * (a % b)) < k * b ↔ 2 * (a % b) < b := by
    rw [Nat.mul_left_comm]
    exact Nat.mul_lt_mul_left hk
  have hhigh : k * b < 2 * (k * (a % b)) ↔ b < 2 * (a % b) := by
    rw [Nat.mul_left_comm]
    exact Nat.mul_lt_mul_left hk
  simp only [hlow, hhigh]

/-- Two quotients of one value round to the same natural number.  Both are brought to a common
denominator first. -/
theorem roundHalfEven_congr {a b c d : Nat} (hb : 0 < b) (hd : 0 < d) (h : a * d = c * b) :
    roundHalfEven a b = roundHalfEven c d := by
  rw [← roundHalfEven_scale hd, ← roundHalfEven_scale (a := c) hb, Nat.mul_comm d a,
    Nat.mul_comm b c, h, Nat.mul_comm d b]

/-- The rounded quotient is off by at most one half. -/
theorem roundHalfEven_near (a : Nat) {b : Nat} (hb : 0 < b) :
    2 * b * roundHalfEven a b ≤ 2 * a + b ∧ 2 * a ≤ 2 * b * roundHalfEven a b + b := by
  have hsplit := Nat.div_add_mod a b
  have hrest := Nat.mod_lt a hb
  unfold roundHalfEven
  simp only
  generalize a / b = q at *
  generalize a % b = r at *
  have hexpand : 2 * b * (q + 1) = 2 * (b * q) + 2 * b := by ring
  have hplain : 2 * b * q = 2 * (b * q) := by ring
  split
  · rw [hplain]
    omega
  · split
    · rw [hexpand]
      omega
    · rcases Nat.mod_two_eq_zero_or_one q with hq | hq
      · rw [hq, Nat.add_zero, hplain]
        omega
      · rw [hq, hexpand]
        omega

/-- The same, of the value of the quotient. -/
theorem abs_sub_roundHalfEven_le (a : Nat) {b : Nat} (hb : 0 < b) :
    |(a : ℚ) / b - roundHalfEven a b| ≤ 1 / 2 := by
  have hb' : (0 : ℚ) < b := by exact_mod_cast hb
  obtain ⟨hbelow, habove⟩ := roundHalfEven_near a hb
  have hbelow' : 2 * (b : ℚ) * roundHalfEven a b ≤ 2 * a + b := by exact_mod_cast hbelow
  have habove' : 2 * (a : ℚ) ≤ 2 * b * roundHalfEven a b + b := by exact_mod_cast habove
  rw [abs_le]
  constructor
  · rw [neg_le_sub_iff_le_add, ← sub_le_iff_le_add, le_div_iff₀ hb']
    linarith
  · rw [sub_le_iff_le_add, div_le_iff₀ hb']
    linarith

/-- What is nearer to a natural than one half rounds to it. -/
theorem roundHalfEven_eq_of_abs_lt {a b q : Nat} (hb : 0 < b)
    (h : |(a : ℚ) / b - q| < 1 / 2) : roundHalfEven a b = q := by
  obtain ⟨hlow, hhigh⟩ := abs_lt.1 h
  obtain ⟨hlow', hhigh'⟩ := abs_le.1 (abs_sub_roundHalfEven_le a hb)
  have hbelow : (roundHalfEven a b : ℚ) < ((q + 1 : Nat) : ℚ) := by
    push_cast
    linarith
  have habove : (q : ℚ) < ((roundHalfEven a b + 1 : Nat) : ℚ) := by
    push_cast
    linarith
  have hbelow' : roundHalfEven a b < q + 1 := by exact_mod_cast hbelow
  have habove' : q < roundHalfEven a b + 1 := by exact_mod_cast habove
  omega

/-! ### The scale of a quotient -/

theorem two_zpow_pos (k : Int) : (0 : ℚ) < 2 ^ k :=
  zpow_pos (by norm_num) k

/-- A quotient reaches a power of two, as naturals tell, when its value does. -/
theorem reachesPower_iff {num den : Nat} (hden : 0 < den) (k : Int) :
    reachesPower num den k = true ↔ (2 : ℚ) ^ k ≤ num / den := by
  have hden' : (0 : ℚ) < den := by exact_mod_cast hden
  rw [le_div_iff₀ hden', mul_comm]
  unfold reachesPower
  by_cases hk : 0 ≤ k
  · obtain ⟨n, rfl⟩ := Int.eq_ofNat_of_zero_le hk
    rw [if_pos hk, decide_eq_true_iff, Int.toNat_natCast, Nat.shiftLeft_eq, zpow_natCast]
    exact_mod_cast Iff.rfl
  · obtain ⟨n, rfl⟩ := Int.exists_eq_neg_ofNat (not_le.1 hk).le
    rw [if_neg hk, decide_eq_true_iff, neg_neg, Int.toNat_natCast, Nat.shiftLeft_eq, zpow_neg,
      zpow_natCast, ← div_eq_mul_inv, div_le_iff₀ (by positivity)]
    exact_mod_cast Iff.rfl

/-- Between which powers of two a quotient lies, up to one place: the difference of the two
logarithms is off by less than one. -/
theorem log2_bounds {num den : Nat} (hnum : num ≠ 0) (hden : den ≠ 0) :
    (2 : ℚ) ^ ((Nat.log2 num : Int) - Nat.log2 den - 1) < num / den ∧
      (num : ℚ) / den < 2 ^ ((Nat.log2 num : Int) - Nat.log2 den + 1) := by
  have hden' : (0 : ℚ) < den := by exact_mod_cast Nat.pos_of_ne_zero hden
  have hnumLow : ((2 : ℚ) ^ Nat.log2 num) ≤ num := by exact_mod_cast Nat.log2_self_le hnum
  have hnumHigh : (num : ℚ) < 2 ^ (Nat.log2 num + 1) := by exact_mod_cast Nat.lt_log2_self
  have hdenLow : ((2 : ℚ) ^ Nat.log2 den) ≤ den := by exact_mod_cast Nat.log2_self_le hden
  have hdenHigh : (den : ℚ) < 2 ^ (Nat.log2 den + 1) := by exact_mod_cast Nat.lt_log2_self
  have hhalf : ∀ i j : Nat, (2 : ℚ) ^ ((i : Int) - j - 1) * 2 ^ (j + 1) = 2 ^ i := by
    intro i j
    rw [← zpow_natCast, ← zpow_natCast, ← zpow_add₀ (by norm_num)]
    congr 1
    push_cast
    ring
  have hdouble : ∀ i j : Nat, (2 : ℚ) ^ ((i : Int) - j + 1) * 2 ^ j = 2 ^ (i + 1) := by
    intro i j
    rw [← zpow_natCast, ← zpow_natCast, ← zpow_add₀ (by norm_num)]
    congr 1
    push_cast
    ring
  constructor
  · rw [lt_div_iff₀ hden']
    calc (2 : ℚ) ^ ((Nat.log2 num : Int) - Nat.log2 den - 1) * den
        < 2 ^ ((Nat.log2 num : Int) - Nat.log2 den - 1) * 2 ^ (Nat.log2 den + 1) :=
          mul_lt_mul_of_pos_left hdenHigh (two_zpow_pos _)
      _ = 2 ^ Nat.log2 num := hhalf _ _
      _ ≤ num := hnumLow
  · rw [div_lt_iff₀ hden']
    calc (num : ℚ) < 2 ^ (Nat.log2 num + 1) := hnumHigh
      _ = 2 ^ ((Nat.log2 num : Int) - Nat.log2 den + 1) * 2 ^ Nat.log2 den := (hdouble _ _).symm
      _ ≤ 2 ^ ((Nat.log2 num : Int) - Nat.log2 den + 1) * den :=
          mul_le_mul_of_nonneg_left hdenLow (two_zpow_pos _).le

/-- The power of two that a positive number reaches but not doubles is unique. -/
theorem eq_of_zpow_bounds {v : ℚ} {t t' : Int} (hlow : (2 : ℚ) ^ t ≤ v) (hhigh : v < 2 ^ (t + 1))
    (hlow' : (2 : ℚ) ^ t' ≤ v) (hhigh' : v < 2 ^ (t' + 1)) : t = t' := by
  have h := (zpow_lt_zpow_iff_right₀ (by norm_num : (1 : ℚ) < 2)).1 (lt_of_le_of_lt hlow hhigh')
  have h' := (zpow_lt_zpow_iff_right₀ (by norm_num : (1 : ℚ) < 2)).1 (lt_of_le_of_lt hlow' hhigh)
  omega

/-- The exponent of the leading binary digit, as rounding finds it. -/
def leadingPower (num den : Nat) : Int :=
  let k : Int := (Nat.log2 num : Int) - Nat.log2 den
  if reachesPower num den k then k else k - 1

/-- A quotient that is not zero lies between its leading power of two and the next one. -/
theorem leadingPower_bounds {num den : Nat} (hnum : num ≠ 0) (hden : den ≠ 0) :
    (2 : ℚ) ^ leadingPower num den ≤ num / den ∧
      (num : ℚ) / den < 2 ^ (leadingPower num den + 1) := by
  obtain ⟨hlow, hhigh⟩ := log2_bounds hnum hden
  have hreaches := @reachesPower_iff num den (Nat.pos_of_ne_zero hden)
    ((Nat.log2 num : Int) - Nat.log2 den)
  unfold leadingPower
  simp only
  split
  · next h => exact ⟨hreaches.1 h, hhigh⟩
  · next h =>
      refine ⟨hlow.le, ?_⟩
      rw [sub_add_cancel]
      exact not_le.1 fun hle => h (hreaches.2 hle)

/-- The least power of two that a number's digits count. -/
def scaleOf (top : Int) : Int :=
  max (top - 52) (-1074)

/-- **Rounding looks at the value only**: at its leading power of two, and at a quotient
whose value it is in units of the scale. -/
theorem nearestRank_eq {num den : Nat} (hnum : num ≠ 0) (hden : den ≠ 0) {top : Int}
    (hlow : (2 : ℚ) ^ top ≤ num / den) (hhigh : (num : ℚ) / den < 2 ^ (top + 1)) :
    ∃ a b : Nat, 0 < b ∧ (a : ℚ) / b = num / den / 2 ^ scaleOf top ∧
      nearestRank num den =
        min ((scaleOf top + 1074).toNat * 2 ^ 52 + roundHalfEven a b) infinityRank := by
  have hden' : (den : ℚ) ≠ 0 := by exact_mod_cast hden
  obtain ⟨hlow', hhigh'⟩ := leadingPower_bounds hnum hden
  have htop : leadingPower num den = top := eq_of_zpow_bounds hlow' hhigh' hlow hhigh
  have hunfold : nearestRank num den =
      min (((scaleOf top + 1074).toNat <<< 52) +
        (if 0 ≤ scaleOf top then roundHalfEven num (den <<< (scaleOf top).toNat)
          else roundHalfEven (num <<< (-scaleOf top).toNat) den)) infinityRank := by
    rw [← htop]
    unfold nearestRank
    rw [if_neg (by simp [hnum, hden])]
    rfl
  rw [hunfold, Nat.shiftLeft_eq]
  by_cases hscale : 0 ≤ scaleOf top
  · rw [if_pos hscale]
    obtain ⟨n, hn⟩ := Int.eq_ofNat_of_zero_le hscale
    refine ⟨num, den <<< n, ?_, ?_, ?_⟩
    · rw [Nat.shiftLeft_eq]
      exact Nat.mul_pos (Nat.pos_of_ne_zero hden) (Nat.two_pow_pos n)
    · rw [hn, Nat.shiftLeft_eq, zpow_natCast]
      push_cast
      rw [div_div]
    · rw [hn, Int.toNat_natCast]
  · rw [if_neg hscale]
    obtain ⟨n, hn⟩ := Int.exists_eq_neg_ofNat (not_le.1 hscale).le
    refine ⟨num <<< n, den, Nat.pos_of_ne_zero hden, ?_, ?_⟩
    · rw [hn, Nat.shiftLeft_eq, zpow_neg, zpow_natCast]
      push_cast
      field_simp
    · rw [hn, neg_neg, Int.toNat_natCast]

/-- **Quotients of one value have the same nearest number.** -/
theorem nearestRank_congr {num den num' den' : Nat} (hnum : num ≠ 0) (hden : den ≠ 0)
    (hnum' : num' ≠ 0) (hden' : den' ≠ 0) (h : (num : ℚ) / den = num' / den') :
    nearestRank num den = nearestRank num' den' := by
  obtain ⟨hlow, hhigh⟩ := leadingPower_bounds hnum hden
  obtain ⟨a, b, hb, hvalue, hrank⟩ := nearestRank_eq hnum hden hlow hhigh
  obtain ⟨c, d, hd, hvalue', hrank'⟩ :=
    nearestRank_eq hnum' hden' (h ▸ hlow) (h ▸ hhigh)
  have hsame : (a : ℚ) / b = c / d := by rw [hvalue, hvalue', h]
  have hb' : (b : ℚ) ≠ 0 := by exact_mod_cast hb.ne'
  have hd' : (d : ℚ) ≠ 0 := by exact_mod_cast hd.ne'
  have hcross : a * d = c * b := by
    rw [div_eq_div_iff hb' hd'] at hsame
    exact_mod_cast hsame
  rw [hrank, hrank', roundHalfEven_congr hb hd hcross]

/-- Well below the largest powers of the format nothing is rounded to infinity.  The leading power
is then below the last one of the format, and rounding adds one unit at most. -/
theorem nearestRank_lt_infinityRank {num den : Nat}
    (h : (num : ℚ) / den < 2 ^ (1023 : Int)) : nearestRank num den < infinityRank := by
  have htop : infinityRank = 2047 * 2 ^ 52 := by decide
  by_cases hzero : num = 0 ∨ den = 0
  · rw [nearestRank, if_pos hzero, htop]
    norm_num
  · obtain ⟨hnum, hden⟩ := not_or.1 hzero
    obtain ⟨hlow, hhigh⟩ := leadingPower_bounds hnum hden
    have hpower : leadingPower num den < 1023 :=
      (zpow_lt_zpow_iff_right₀ (by norm_num : (1 : ℚ) < 2)).1 (lt_of_le_of_lt hlow h)
    obtain ⟨a, b, hb, hvalue, hrank⟩ := nearestRank_eq hnum hden hlow hhigh
    have hscale : scaleOf (leadingPower num den) ≤ 970 := by
      unfold scaleOf
      omega
    have hunits : (a : ℚ) / b < 2 ^ 53 := by
      rw [hvalue, div_lt_iff₀ (two_zpow_pos _), ← zpow_natCast, ← zpow_add₀ (by norm_num)]
      refine lt_of_lt_of_le hhigh (zpow_le_zpow_right₀ (by norm_num) ?_)
      unfold scaleOf
      push_cast
      omega
    have hrounded : roundHalfEven a b ≤ 2 ^ 53 := by
      have hcast : (roundHalfEven a b : ℚ) < ((2 ^ 53 + 1 : Nat) : ℚ) := by
        push_cast
        linarith [(abs_le.1 (abs_sub_roundHalfEven_le a hb)).1]
      have hlt : roundHalfEven a b < 2 ^ 53 + 1 := by exact_mod_cast hcast
      exact Nat.le_of_lt_succ hlt
    have hbound : (scaleOf (leadingPower num den) + 1074).toNat * 2 ^ 52 ≤ 2044 * 2 ^ 52 :=
      Nat.mul_le_mul_right _ (by omega)
    rw [hrank, htop]
    refine min_lt_of_left_lt ?_
    omega

/-! ### The value of a number -/

/-- The magnitude of a number as a rational number. -/
def magnitude (x : Binary64) : ℚ :=
  x.scaled.1 * 2 ^ x.scaled.2

/-- Which pairs of digits and scale stand for numbers, and at which rank. -/
theorem scaled_spec (x : Binary64) :
    x.scaled.1 < 2 ^ 53 ∧ -1074 ≤ x.scaled.2 ∧ (x.scaled.2 = -1074 ∨ 2 ^ 52 ≤ x.scaled.1) ∧
      x.rank = (x.scaled.2 + 1074).toNat * 2 ^ 52 + x.scaled.1 := by
  have hpower : 1 <<< 52 = 2 ^ 52 := by decide
  have hsplit := Nat.div_add_mod x.rank (2 ^ 52)
  have hdigits := Nat.mod_lt x.rank (Nat.two_pow_pos 52)
  unfold scaled
  simp only [hpower]
  generalize x.rank / 2 ^ 52 = e at *
  generalize x.rank % 2 ^ 52 = f at *
  split
  · next he =>
      subst he
      refine ⟨by simp only; omega, by simp, Or.inl rfl, ?_⟩
      simp only
      omega
  · next he =>
      refine ⟨by simp only; omega, by simp only; omega, Or.inr (by simp), ?_⟩
      have hscale : ((e : Int) - 1075 + 1074).toNat = e - 1 := by omega
      simp only [hscale]
      have hone : e - 1 + 1 = e := by omega
      rw [← hsplit, ← hone, Nat.mul_add]
      simp only [Nat.add_sub_cancel]
      omega

/-- The ratio of a number is its magnitude. -/
theorem ratio_eq (x : Binary64) :
    x.ratio.2 ≠ 0 ∧ (x.ratio.1 : ℚ) / x.ratio.2 = x.magnitude := by
  unfold ratio magnitude
  generalize x.scaled = scaled
  obtain ⟨m, e⟩ := scaled
  simp only
  split
  · next he =>
      obtain ⟨n, rfl⟩ := Int.eq_ofNat_of_zero_le he
      simp [Nat.shiftLeft_eq]
  · next he =>
      obtain ⟨n, rfl⟩ := Int.exists_eq_neg_ofNat (not_le.1 he).le
      simp [Nat.shiftLeft_eq, div_eq_mul_inv]

/-- A number that is not zero has a positive magnitude. -/
theorem magnitude_pos {x : Binary64} (h : x.rank ≠ 0) : 0 < x.magnitude := by
  obtain ⟨_, _, hnormal, hrank⟩ := x.scaled_spec
  have hdigits : 0 < x.scaled.1 := by
    rcases hnormal with he | hm
    · rw [he] at hrank
      simp at hrank
      omega
    · exact Nat.lt_of_lt_of_le (Nat.two_pow_pos 52) hm
  unfold magnitude
  have hcast : (0 : ℚ) < x.scaled.1 := by exact_mod_cast hdigits
  exact mul_pos hcast (two_zpow_pos _)

/-- What is within half a unit of a number of units is that many units. -/
theorem nearestRank_eq_of_units {num den : Nat} (hnum : num ≠ 0) (hden : den ≠ 0) {top : Int}
    (hlow : (2 : ℚ) ^ top ≤ num / den) (hhigh : (num : ℚ) / den < 2 ^ (top + 1)) {q : Nat}
    (h : |(num : ℚ) / den / 2 ^ scaleOf top - q| < 1 / 2) :
    nearestRank num den = min ((scaleOf top + 1074).toNat * 2 ^ 52 + q) infinityRank := by
  obtain ⟨a, b, hb, hvalue, hrank⟩ := nearestRank_eq hnum hden hlow hhigh
  rw [hrank, roundHalfEven_eq_of_abs_lt hb (hvalue ▸ h)]

/-- Twice as many units of half the size stand at the same rank, at a power of two. -/
theorem rank_at_power {e : Int} (he : -1074 < e) :
    (e - 1 + 1074).toNat * 2 ^ 52 + 2 ^ 53 = (e + 1074).toNat * 2 ^ 52 + 2 ^ 52 := by
  obtain ⟨n, hn⟩ : ∃ n : Nat, e = n - 1073 := ⟨(e + 1073).toNat, by omega⟩
  have hbefore : (e - 1 + 1074).toNat = n := by omega
  have hafter : (e + 1074).toNat = n + 1 := by omega
  rw [hbefore, hafter, Nat.pow_succ 2 52]
  ring

/-- Digits that are near to fewer than the full number of units are the least of their length. -/
theorem eq_top_of_near {m : Nat} {w : ℚ} (hm : 2 ^ 52 ≤ m) (hw : w < 2 ^ 52)
    (h : |w - m| < 1 / 2) : m = 2 ^ 52 := by
  obtain ⟨hlow, _⟩ := abs_lt.1 h
  have hlt : (m : ℚ) < ((2 ^ 52 + 1 : Nat) : ℚ) := by
    push_cast
    linarith
  have hlt' : m < 2 ^ 52 + 1 := by exact_mod_cast hlt
  exact le_antisymm (Nat.le_of_lt_succ hlt') hm

section Near

variable {num den m : Nat} {e : Int} {w : ℚ}

/-- Just below a power of two, in units of half the size. -/
theorem nearestRank_of_below_power (hnum : num ≠ 0) (hden : den ≠ 0) (he : -1074 < e)
    (hw : (num : ℚ) / den = w * 2 ^ e) (hbelow : w < 2 ^ 52) (hnear : |w - 2 ^ 52| < 1 / 4) :
    nearestRank num den = min ((e + 1074).toNat * 2 ^ 52 + 2 ^ 52) infinityRank := by
  have hunit : (0 : ℚ) < 2 ^ e := two_zpow_pos e
  obtain ⟨hlow, _⟩ := abs_lt.1 hnear
  have hscale : scaleOf (e + 51) = e - 1 := by
    unfold scaleOf
    omega
  have hreaches : (2 : ℚ) ^ (e + 51) ≤ num / den := by
    rw [hw, zpow_add₀ (by norm_num), mul_comm]
    refine mul_le_mul_of_nonneg_right ?_ hunit.le
    norm_num at hlow ⊢
    linarith
  have hbounded : (num : ℚ) / den < 2 ^ (e + 51 + 1) := by
    rw [hw, add_assoc, zpow_add₀ (by norm_num), mul_comm]
    refine mul_lt_mul_of_pos_left ?_ hunit
    norm_num at hbelow ⊢
    exact hbelow
  rw [nearestRank_eq_of_units hnum hden hreaches hbounded (q := 2 ^ 53), hscale, rank_at_power he]
  have hdouble : (num : ℚ) / den / 2 ^ scaleOf (e + 51) = 2 * w := by
    rw [hscale, hw, zpow_sub₀ (by norm_num), zpow_one]
    field_simp
  have htwice : 2 * w - ((2 ^ 53 : Nat) : ℚ) = 2 * (w - 2 ^ 52) := by
    push_cast
    ring
  rw [hdouble, htwice, abs_mul, abs_two]
  linarith

/-- In units of a number's own scale: what is nearer to its digits than their part by `2 ^ 54`
rounds to them. -/
theorem nearestRank_of_units_near (hnum : num ≠ 0) (hden : den ≠ 0) (hsmall : m < 2 ^ 53)
    (hleast : -1074 ≤ e) (hnormal : e = -1074 ∨ 2 ^ 52 ≤ m) (hw : (num : ℚ) / den = w * 2 ^ e)
    (hnear : |w - m| * 2 ^ 54 < m) :
    nearestRank num den = min ((e + 1074).toNat * 2 ^ 52 + m) infinityRank := by
  have hunit : (0 : ℚ) < 2 ^ e := two_zpow_pos e
  have hsmall' : (m : ℚ) + 1 ≤ 2 ^ 53 := by exact_mod_cast hsmall
  have hhalf : |w - m| < 1 / 2 := by linarith
  have hunits : (num : ℚ) / den / 2 ^ e = w := by rw [hw, mul_div_cancel_right₀ _ hunit.ne']
  obtain ⟨hlow, hhigh⟩ := leadingPower_bounds hnum hden
  rcases le_or_gt ((2 : ℚ) ^ 52) w with hreached | hreached
  · -- the value has the leading power of the number
    have hscale : scaleOf (e + 52) = e := by
      unfold scaleOf
      omega
    obtain ⟨_, habove⟩ := abs_lt.1 hhalf
    have hreaches : (2 : ℚ) ^ (e + 52) ≤ num / den := by
      rw [hw, zpow_add₀ (by norm_num), mul_comm]
      exact mul_le_mul_of_nonneg_right (by exact_mod_cast hreached) hunit.le
    have hbounded : (num : ℚ) / den < 2 ^ (e + 52 + 1) := by
      rw [hw, add_assoc, zpow_add₀ (by norm_num), mul_comm]
      refine mul_lt_mul_of_pos_left ?_ hunit
      norm_num at hsmall' ⊢
      linarith
    rw [nearestRank_eq_of_units hnum hden hreaches hbounded (q := m), hscale]
    rw [hscale, hunits]
    exact hhalf
  · by_cases he : e = -1074
    · -- the smallest scale is the scale of everything below
      have hpower : leadingPower num den < e + 52 := by
        refine (zpow_lt_zpow_iff_right₀ (by norm_num : (1 : ℚ) < 2)).1 (lt_of_le_of_lt hlow ?_)
        rw [hw, zpow_add₀ (by norm_num), mul_comm]
        exact mul_lt_mul_of_pos_left (by exact_mod_cast hreached) hunit
      have hscale : scaleOf (leadingPower num den) = e := by
        unfold scaleOf
        omega
      rw [nearestRank_eq_of_units hnum hden hlow hhigh (q := m), hscale]
      rw [hscale, hunits]
      exact hhalf
    · -- the number is a power of two, and the value lies below it
      obtain rfl := eq_top_of_near (hnormal.resolve_left he) hreached hhalf
      refine nearestRank_of_below_power hnum hden (by omega) hw hreached ?_
      push_cast at hnear
      norm_num at hnear ⊢
      linarith

end Near

/-- **What is near to a number rounds to it.** -/
theorem nearestRank_eq_of_near {x : Binary64} (hfinite : x.rank < infinityRank) {num den : Nat}
    (hnum : num ≠ 0) (hden : den ≠ 0)
    (h : |(num : ℚ) / den - x.magnitude| * 2 ^ 54 < x.magnitude) :
    nearestRank num den = x.rank := by
  obtain ⟨hsmall, hleast, hnormal, hrank⟩ := x.scaled_spec
  unfold magnitude at h
  generalize x.scaled.1 = m at *
  generalize x.scaled.2 = e at *
  have hunit : (0 : ℚ) < 2 ^ e := two_zpow_pos e
  obtain ⟨w, hw⟩ : ∃ w : ℚ, (num : ℚ) / den = w * 2 ^ e :=
    ⟨num / den / 2 ^ e, (div_mul_cancel₀ _ hunit.ne').symm⟩
  have hnear : |w - m| * 2 ^ 54 < m := by
    have hfactor : |(num : ℚ) / den - m * 2 ^ e| = |w - m| * 2 ^ e := by
      rw [hw, ← sub_mul, abs_mul, abs_of_pos hunit]
    rw [hfactor] at h
    have hcancel : |w - m| * 2 ^ 54 * 2 ^ e < m * 2 ^ e := by linarith
    exact lt_of_mul_lt_mul_right hcancel hunit.le
  rw [nearestRank_of_units_near hnum hden hsmall hleast hnormal hw hnear, ← hrank]
  exact min_eq_left hfinite.le

end GraphWarden.Binary64
