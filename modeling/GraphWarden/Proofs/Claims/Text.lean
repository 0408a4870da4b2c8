import GraphWarden.Claims
import GraphWarden.Proofs.Json.Compact

/-!
# The text of a claim

A claim is shown as the text of a datum, which tells the claim (`display_inj`) and holds no
control character.  Both need that no number of the claim is infinite; the claims that are
read from a payload with regular numbers are of that kind (`bounded_ofPayload`).
-/

namespace GraphWarden

namespace Claim

mutual

/-- No number of the claim is infinite. -/
def Bounded : Claim → Prop
  | .float x => x.isFinite = true
  | .list items => BoundedItems items
  | .null | .flag _ | .int _ | .text _ => True

def BoundedItems : List Claim → Prop
  | [] => True
  | c :: cs => Bounded c ∧ BoundedItems cs

end

/-- Claims in a list are bounded together when each of them is. -/
theorem boundedItems_iff {cs : List Claim} : BoundedItems cs ↔ ∀ c ∈ cs, c.Bounded := by
  induction cs with
  | nil => simp [BoundedItems]
  | cons c cs ih => simp [BoundedItems, ih]

/-! ### Showing a claim -/

mutual

/-- The claim that is shown as a datum. -/
def ofShown : Json → Claim
  | .null | .object _ => .null
  | .flag b => .flag b
  | .int i => .int i
  | .float x => .float x
  | .text s => .text s
  | .list items => .list (ofShownItems items)

def ofShownItems : List Json → List Claim
  | [] => []
  | j :: js => ofShown j :: ofShownItems js

end

theorem toJson_float {x : Binary64} (hx : x.isFinite = true) :
    (Claim.float x).toValue.toJson = .float x :=
  if_pos hx

mutual

/-- What is shown of a claim is the claim: nothing gets lost on the way to a datum, as long as no
number is infinite. -/
theorem ofShown_toJson : (c : Claim) → c.Bounded → ofShown c.toValue.toJson = c
  | .null, _ | .flag _, _ | .int _, _ | .text _, _ => rfl
  | .float x, hc => by rw [toJson_float hc, ofShown]
  | .list items, hc => by
      simp only [toValue, Value.toJson, ofShown, ofShownItems_toJson items hc]

theorem ofShownItems_toJson : (cs : List Claim) → BoundedItems cs →
    ofShownItems (Value.toJsonItems (toValues cs)) = cs
  | [], _ => rfl
  | c :: cs, hcs => by
      simp only [toValues, Value.toJsonItems, ofShownItems, ofShown_toJson c hcs.1,
        ofShownItems_toJson cs hcs.2]

end

mutual

/-- The datum that is shown has no infinite number, because the claim has none. -/
theorem bounded_toJson : (c : Claim) → c.Bounded → c.toValue.toJson.Bounded
  | .null, _ | .flag _, _ | .int _, _ | .text _, _ => trivial
  | .float x, hc => by
      rw [toJson_float hc]
      exact hc
  | .list items, hc => boundedItems_toJson items hc

theorem boundedItems_toJson : (cs : List Claim) → BoundedItems cs →
    Json.LeavesItems Json.BoundedLeaf (Value.toJsonItems (toValues cs))
  | [], _ => trivial
  | c :: cs, hcs => ⟨bounded_toJson c hcs.1, boundedItems_toJson cs hcs.2⟩

end

theorem display_eq (c : Claim) : c.toValue.display = c.toValue.toJson.compact := by
  cases c <;> rfl

variable {c c' : Claim}

/-- **Two claims that are shown alike are the same claim.** -/
theorem display_inj (hc : c.Bounded) (hc' : c'.Bounded)
    (h : c.toValue.display = c'.toValue.display) : c = c' := by
  rw [display_eq, display_eq] at h
  have hdatum := Json.compact_inj (bounded_toJson c hc) (bounded_toJson c' hc') h
  rw [← ofShown_toJson c hc, hdatum, ofShown_toJson c' hc']

/-- What is displayed has no control character, in particular not the one that separates the parts
of a key. -/
theorem plain_display (hc : c.Bounded) : Json.Plain c.toValue.display.toList := by
  rw [display_eq]
  exact Json.plain_compact _ (bounded_toJson c hc)

/-! ### Reading a claim -/

/-- The number nearest to an integer of a machine word is finite. -/
theorem isFinite_ofInt {i : Int} (hlow : Word.intMin ≤ i) (hhigh : i ≤ Word.natMax) :
    (Binary64.ofInt i).isFinite = true := by
  have hword : i.natAbs < 2 ^ 64 := by
    have hmin : Word.intMin = -2 ^ 63 := by decide
    have hmax : (Word.natMax : Int) = 2 ^ 64 - 1 := by decide
    omega
  have hword' : ((i.natAbs : ℚ) / (1 : Nat)) < 2 ^ (1023 : Int) := by
    rw [Nat.cast_one, div_one]
    calc (i.natAbs : ℚ) < 2 ^ 64 := by exact_mod_cast hword
      _ ≤ 2 ^ 1023 := pow_le_pow_right₀ (by norm_num) (by norm_num)
      _ = 2 ^ (1023 : Int) := (zpow_ofNat 2 1023).symm
  unfold Binary64.isFinite Binary64.ofInt
  rw [Binary64.ofRatio_rank]
  exact decide_eq_true (Binary64.nearestRank_lt_infinityRank hword')

/-- A single claim that is read from a regular datum is bounded. -/
theorem bounded_of_ofScalar? {j : Json} (hj : j.Regular) (h : ofScalar? j = some c) :
    c.Bounded := by
  cases j with
  | null | flag _ | text _ =>
      obtain rfl := Option.some.inj h
      trivial
  | int i =>
      obtain rfl := Option.some.inj h
      unfold ofInt
      split
      · trivial
      · exact isFinite_ofInt hj.1 hj.2
  | float x =>
      obtain rfl := Option.some.inj h
      exact hj
  | list items => cases h
  | object entries => cases h

/-- A claim that was read from a bounded datum is bounded, and that also when it is a list. -/
theorem bounded_of_ofJson? {j : Json} (hj : j.Regular) (h : ofJson? j = some c) : c.Bounded := by
  cases j with
  | list items =>
      obtain rfl := Option.some.inj h
      refine boundedItems_iff.2 fun c hc => ?_
      obtain ⟨item, hitem, hscalar⟩ := List.mem_filterMap.1 hc
      exact bounded_of_ofScalar? (Json.leavesItems_iff.1 hj item hitem) hscalar
  | null | flag _ | int _ | float _ | text _ | object _ => exact bounded_of_ofScalar? hj h

end Claim

namespace Claims

/-- No number among the claims is infinite. -/
def Bounded (cs : Claims) : Prop :=
  ∀ e ∈ cs.byName.entries, e.2.Bounded

mutual

/-- The claims below one key of a payload are bounded, however deep they lie. -/
theorem bounded_leavesAt (name : String) : (j : Json) → j.Regular →
    ∀ e ∈ leavesAt name j, e.2.Bounded
  | .object entries, hj => bounded_leaves (some name) entries hj
  | .null, hj | .flag _, hj | .int _, hj | .float _, hj | .text _, hj | .list _, hj => by
      intro e he
      obtain ⟨c, hc, rfl⟩ := List.mem_map.1 he
      exact Claim.bounded_of_ofJson? hj (Option.mem_toList.1 hc)

/-- The claims below the entries of an object, one after the other. -/
theorem bounded_leaves (path : Option String) : (es : List (String × Json)) →
    Json.LeavesEntries Json.RegularLeaf es → ∀ e ∈ leaves path es, e.2.Bounded
  | [], _ => by simp [leaves]
  | (key, j) :: es, hes => by
      intro e he
      rcases List.mem_append.1 he with he | he
      · exact bounded_leavesAt (below path key) j hes.1 e he
      · exact bounded_leaves path es hes.2 e he

end

/-- All claims of a payload are bounded, since each comes from a leaf of it. -/
theorem bounded_ofEntries {es : List (String × Json)}
    (hes : Json.LeavesEntries Json.RegularLeaf es) : (ofEntries es).Bounded :=
  fun e he => bounded_leaves .none es hes e (Entries.mem_of_mem_ofList he)

/-- The claims of a payload with regular numbers. -/
theorem bounded_ofPayload {space : Option String} {payload : Json} (hpayload : payload.Regular)
    {cs : Claims} (h : ofPayload space payload = .ok cs) : cs.Bounded := by
  have hnormalized := Json.Leaves.normalized payload hpayload
  unfold ofPayload at h
  split at h
  · next entries heq =>
      rw [heq] at hnormalized
      split at h
      · obtain rfl := Except.ok.inj h
        exact bounded_ofEntries hnormalized
      · next name _ =>
          split at h
          · obtain rfl := Except.ok.inj h
            simp [Bounded, none, Keyed.empty]
          · next inner hinner =>
              obtain rfl := Except.ok.inj h
              exact bounded_ofEntries (Json.leavesEntries_iff.1 hnormalized _
                (Entries.mem_of_find?_eq_some hinner))
          · cases h
  · cases h

/-- Claims that a token can bring: those of a payload with regular numbers. -/
def Readable (cs : Claims) : Prop :=
  ∃ space payload, Json.Regular payload ∧ ofPayload space payload = .ok cs

/-- Claims that could have been read from some payload are bounded. -/
theorem Readable.bounded {cs : Claims} (h : cs.Readable) : cs.Bounded := by
  obtain ⟨_, _, hpayload, hread⟩ := h
  exact bounded_ofPayload hpayload hread

end Claims

end GraphWarden
