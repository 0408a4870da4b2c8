import GraphWarden.Value.Basic

/-!
# Comparing values

Three comparisons are used.  `same` is equality of structure, where numbers are
compared as numbers: the two zeros are the same.  `looseEq` is what an equality
operator means: an integer equals the number nearest to it, and an enum value
equals the text of its name, also inside lists.  `looseCompare?` orders numbers,
texts and truth values among themselves and nothing else.

`same` is an equivalence (`same_refl`, `same_comm`, `same_trans`), and values
that are the same compare alike with every third value (`looseEq_congr`,
`looseCompare?_congr`).
-/

namespace GraphWarden

namespace Value

mutual

/-- Equality of structure. -/
def same : Value → Value → Bool
  | .variable a, .variable b => a == b
  | .int a, .int b => a == b
  | .float a, .float b => a.same b
  | .text a, .text b => a == b
  | .flag a, .flag b => a == b
  | .null, .null => true
  | .enum a, .enum b => a == b
  | .list a, .list b => sameItems a b
  | .object a, .object b => sameEntries a b
  | _, _ => false

def sameItems : List Value → List Value → Bool
  | [], [] => true
  | a :: as, b :: bs => same a b && sameItems as bs
  | _, _ => false

def sameEntries : List (String × Value) → List (String × Value) → Bool
  | [], [] => true
  | (j, a) :: as, (k, b) :: bs => j == k && same a b && sameEntries as bs
  | _, _ => false

end

mutual

/-- What an equality operator means. -/
def looseEq : Value → Value → Bool
  | .int a, .float b => (Binary64.ofInt a).same b
  | .float a, .int b => (Binary64.ofInt b).same a
  | .text a, .enum b => a == b
  | .enum a, .text b => a == b
  | .list a, .list b => looseEqItems a b
  | a, b => same a b

def looseEqItems : List Value → List Value → Bool
  | [], [] => true
  | a :: as, b :: bs => looseEq a b && looseEqItems as bs
  | _, _ => false

end

/-- The order of numbers, of texts and of truth values; `none` for values of
kinds that have no order between them. -/
def looseCompare? : Value → Value → Option Ordering
  | .int a, .int b => some (compare a b)
  | .int a, .float b => some ((Binary64.ofInt a).compare b)
  | .float a, .int b => some (a.compare (Binary64.ofInt b))
  | .float a, .float b => some (a.compare b)
  | .text a, .text b => some (compareOfLessAndEq a b)
  | .flag a, .flag b => some (compare a.toNat b.toNat)
  | _, _ => none

mutual

/-- Every value is the same as itself.  By structural recursion, together with its items and its
entries. -/
theorem same_refl : (v : Value) → same v v = true
  | .variable _ | .int _ | .text _ | .flag _ | .null | .enum _ => by simp [same]
  | .float x => by simp [same, Binary64.same_refl]
  | .list items => by simp [same, sameItems_refl items]
  | .object entries => by simp [same, sameEntries_refl entries]

/-- The items of a list are the same as themselves, one by one. -/
theorem sameItems_refl : (vs : List Value) → sameItems vs vs = true
  | [] => by simp [sameItems]
  | v :: vs => by simp [sameItems, same_refl v, sameItems_refl vs]

/-- The entries of an object are the same as themselves, one by one. -/
theorem sameEntries_refl : (es : List (String × Value)) → sameEntries es es = true
  | [] => by simp [sameEntries]
  | (_, v) :: es => by simp [sameEntries, same_refl v, sameEntries_refl es]

end

mutual

/-- It does not matter in which order two values are compared.  Both are taken apart together:
values of two different kinds are never the same, whichever comes first. -/
theorem same_comm : (a b : Value) → same a b = same b a
  | .float x, b => by cases b <;> simp [same, Binary64.same_comm x]
  | .list xs, b => by
    cases b <;> try simp [same]
    exact sameItems_comm xs _
  | .object xs, b => by
    cases b <;> try simp [same]
    exact sameEntries_comm xs _
  | .variable x, b => by cases b <;> simp [same, Bool.beq_comm]
  | .int x, b => by cases b <;> simp [same, Bool.beq_comm]
  | .text x, b => by cases b <;> simp [same, Bool.beq_comm]
  | .flag x, b => by cases b <;> simp [same, Bool.beq_comm]
  | .enum x, b => by cases b <;> simp [same, Bool.beq_comm]
  | .null, b => by cases b <;> simp [same]

/-- Lists of items are compared either way with the same result. -/
theorem sameItems_comm : (as bs : List Value) → sameItems as bs = sameItems bs as
  | [], bs => by cases bs <;> simp [sameItems]
  | a :: as, [] => by simp [sameItems]
  | a :: as, b :: bs => by simp [sameItems, same_comm a b, sameItems_comm as bs]

/-- Lists of entries are compared either way with the same result, keys included. -/
theorem sameEntries_comm : (as bs : List (String × Value)) → sameEntries as bs = sameEntries bs as
  | [], bs => by cases bs <;> simp [sameEntries]
  | (j, a) :: as, [] => by simp [sameEntries]
  | (j, a) :: as, (k, b) :: bs => by
    simp [sameEntries, same_comm a b, sameEntries_comm as bs, Bool.beq_comm (a := j)]

end

mutual

/-- What is the same as a third is the same as each other.  This is where numbers matter: two zeros
of different signs are the same without being equal, so transitivity does not come from that of
equality. -/
theorem same_trans : (a b c : Value) → same a b = true → same b c = true → same a c = true
  | .float x, b, c, hab, hbc => by
    cases b <;> simp [same] at hab
    cases c <;> simp [same] at hbc
    simp only [same, Binary64.same_iff] at *
    exact hab.trans hbc
  | .list xs, b, c, hab, hbc => by
    cases b <;> simp [same] at hab
    cases c <;> simp [same] at hbc
    exact sameItems_trans xs _ _ hab hbc
  | .object xs, b, c, hab, hbc => by
    cases b <;> simp [same] at hab
    cases c <;> simp [same] at hbc
    exact sameEntries_trans xs _ _ hab hbc
  | .variable x, b, c, hab, hbc => by
    cases b <;> simp [same] at hab; simpa [hab] using hbc
  | .int x, b, c, hab, hbc => by cases b <;> simp [same] at hab; simpa [hab] using hbc
  | .text x, b, c, hab, hbc => by cases b <;> simp [same] at hab; simpa [hab] using hbc
  | .flag x, b, c, hab, hbc => by cases b <;> simp [same] at hab; simpa [hab] using hbc
  | .enum x, b, c, hab, hbc => by cases b <;> simp [same] at hab; simpa [hab] using hbc
  | .null, b, c, hab, hbc => by cases b <;> simp [same] at hab; exact hbc

/-- Items that are the same as the items of a third list are the same, and so there are equally
many of them. -/
theorem sameItems_trans : (as bs cs : List Value) →
    sameItems as bs = true → sameItems bs cs = true → sameItems as cs = true
  | [], bs, cs, hab, hbc => by cases bs <;> simp [sameItems] at hab; exact hbc
  | a :: as, bs, cs, hab, hbc => by
    cases bs <;> simp [sameItems] at hab
    cases cs <;> simp [sameItems] at hbc
    simp [sameItems, same_trans _ _ _ hab.1 hbc.1, sameItems_trans _ _ _ hab.2 hbc.2]

/-- Entries that are the same as those of a third object are the same, under the same keys. -/
theorem sameEntries_trans : (as bs cs : List (String × Value)) →
    sameEntries as bs = true → sameEntries bs cs = true → sameEntries as cs = true
  | [], bs, cs, hab, hbc => by cases bs <;> simp [sameEntries] at hab; exact hbc
  | (j, a) :: as, bs, cs, hab, hbc => by
    cases bs with
    | nil => simp [sameEntries] at hab
    | cons b bs =>
      cases cs with
      | nil => simp [sameEntries] at hbc
      | cons c cs =>
        obtain ⟨k, b⟩ := b
        obtain ⟨l, c⟩ := c
        simp only [sameEntries, Bool.and_eq_true, beq_iff_eq] at hab hbc ⊢
        exact ⟨⟨hab.1.1.trans hbc.1.1, same_trans _ _ _ hab.1.2 hbc.1.2⟩,
          sameEntries_trans _ _ _ hab.2 hbc.2⟩

end

/-- Values that are the same are equal to the same values. -/
theorem same_congr {a b : Value} (h : same a b = true) (c : Value) : same a c = same b c := by
  rw [Bool.eq_iff_iff]
  exact ⟨fun hac => same_trans b a c (same_comm a b ▸ h) hac, fun hbc => same_trans a b c h hbc⟩

mutual

/-- Values that are the same are loosely equal to the same values.  Only numbers need an argument:
what is loosely equal to one is so by its place in the order, which the two zeros share. -/
theorem looseEq_congr : (c a b : Value) → same a b = true → looseEq c a = looseEq c b
  | .list xs, a, b, h => by
    cases a <;> cases b <;> simp [same] at h <;> try simp [looseEq, same]
    exact looseEqItems_congr xs _ _ h
  | .int x, a, b, h => by
    cases a <;> cases b <;> simp [same] at h <;> try simp [looseEq, same, h]
    rw [Binary64.same_iff] at h
    simp [Binary64.same, h]
  | .float x, a, b, h => by
    cases a <;> cases b <;> simp [same] at h <;> try simp [looseEq, same, h]
    rw [Binary64.same_iff] at h
    simp [Binary64.same, h]
  | .text x, a, b, h => by
    cases a <;> cases b <;> simp [same] at h <;> simp [looseEq, same, h]
  | .enum x, a, b, h => by
    cases a <;> cases b <;> simp [same] at h <;> simp [looseEq, same, h]
  | .variable x, a, b, h => by
    cases a <;> cases b <;> simp [same] at h <;> simp [looseEq, same, h]
  | .flag x, a, b, h => by
    cases a <;> cases b <;> simp [same] at h <;> simp [looseEq, same, h]
  | .null, a, b, h => by
    cases a <;> cases b <;> simp [same] at h <;> simp [looseEq, same]
  | .object xs, a, b, h => by
    cases a <;> cases b <;> simp [same] at h <;> try simp [looseEq, same]
    have : same (.object _) (.object _) = true := h
    have e := same_congr this (.object xs)
    rw [same_comm _ (.object xs), same_comm _ (.object xs)] at e
    simpa [same] using e

/-- Lists of items that are the same are loosely equal to the same lists.  This is `looseEq_congr`
below one list. -/
theorem looseEqItems_congr : (cs as bs : List Value) → sameItems as bs = true →
    looseEqItems cs as = looseEqItems cs bs
  | [], as, bs, h => by cases as <;> cases bs <;> simp [sameItems] at h <;> simp [looseEqItems]
  | c :: cs, as, bs, h => by
    cases as <;> cases bs <;> simp [sameItems] at h <;> simp [looseEqItems]
    rw [looseEq_congr c _ _ h.1, looseEqItems_congr cs _ _ h.2]

end

/-- Values that are the same are ordered alike against every third value. -/
theorem looseCompare?_congr {a b : Value} (h : same a b = true) (c : Value) :
    looseCompare? c a = looseCompare? c b := by
  cases a <;> cases b <;> simp [same] at h <;> try simp [h]
  all_goals first
    | (rw [Binary64.same_iff] at h; cases c <;> simp [looseCompare?, Binary64.compare, h])
    | (cases c <;> simp [looseCompare?])

end Value

end GraphWarden
