import GraphWarden.Proofs.Filter.Verdict
import GraphWarden.Filter.Bind

/-!
# Claims in place of variables

Binding a filter to claims succeeds or fails as a whole.  To compare a bound filter with the
filters that it was put together from, the variables are filled in here without ever failing: a
variable that has no claim stays (`Filter.filled`).  Where each variable has a claim this is what
binding yields (`Filter.bind?_eq_filled`).

Filters of one structure are filled alike (`Filter.same_filled`).  So a filter may be simplified
first and filled afterwards: whatever is read off filled filters is a **reading of the filters
with their variables** (`Reading.filled`), and every law for readings holds of it.
-/

namespace GraphWarden

namespace Value

mutual

/-- The value with its claims in place of variables. -/
def filled (claims : Claims) : Value → Value
  | .variable name => (claims.find? name).elim (.variable name) Claim.toValue
  | .list items => .list (filledItems claims items)
  | .object entries => .object (filledEntries claims entries)
  | v => v

def filledItems (claims : Claims) : List Value → List Value
  | [] => []
  | v :: vs => filled claims v :: filledItems claims vs

def filledEntries (claims : Claims) : List (String × Value) → List (String × Value)
  | [] => []
  | (k, v) :: es => (k, filled claims v) :: filledEntries claims es

end

mutual

/-- Where each variable has a claim, binding fills them in. -/
theorem bind?_eq_filled {claims : Claims} : (v : Value) →
    (∀ name ∈ v.occurrences, claims.has name = true) → v.bind? claims = some (v.filled claims)
  | .variable name, h => by
      have hclaim : (claims.find? name).isSome = true := h name (by simp [occurrences])
      obtain ⟨claim, hclaim⟩ := Option.isSome_iff_exists.1 hclaim
      simp [bind?, filled, hclaim]
  | .list items, h => by
      rw [bind?, filled, bindItems?_eq_filled items (by simpa [occurrences] using h),
        Option.map_some]
  | .object entries, h => by
      rw [bind?, filled, bindEntries?_eq_filled entries (by simpa [occurrences] using h),
        Option.map_some]
  | .int _, _ | .float _, _ | .text _, _ | .flag _, _ | .null, _ | .enum _, _ => by
      simp [bind?, filled]

/-- Items of which every variable has a claim are bound to the filled items. -/
theorem bindItems?_eq_filled {claims : Claims} : (vs : List Value) →
    (∀ name ∈ occurrencesItems vs, claims.has name = true) →
    bindItems? claims vs = some (filledItems claims vs)
  | [], _ => by rw [bindItems?, filledItems]
  | v :: vs, h => by
      simp only [occurrencesItems, List.mem_append, or_imp, forall_and] at h
      simp [bindItems?, filledItems, bind?_eq_filled v h.1, bindItems?_eq_filled vs h.2]

/-- Entries of which every variable has a claim are bound to the filled entries. -/
theorem bindEntries?_eq_filled {claims : Claims} : (es : List (String × Value)) →
    (∀ name ∈ occurrencesEntries es, claims.has name = true) →
    bindEntries? claims es = some (filledEntries claims es)
  | [], _ => by rw [bindEntries?, filledEntries]
  | (k, v) :: es, h => by
      simp only [occurrencesEntries, List.mem_append, or_imp, forall_and] at h
      simp [bindEntries?, filledEntries, bind?_eq_filled v h.1, bindEntries?_eq_filled es h.2]

end

mutual

/-- Values of one structure are filled alike. -/
theorem same_filled {claims : Claims} : (v w : Value) → same v w = true →
    same (v.filled claims) (w.filled claims) = true
  | .variable name, w, h => by
      cases w <;> simp [same] at h
      subst h
      exact same_refl _
  | .list items, w, h => by
      cases w <;> simp [same] at h
      simpa [filled, same] using sameItems_filled items _ h
  | .object entries, w, h => by
      cases w <;> simp [same] at h
      simpa [filled, same] using sameEntries_filled entries _ h
  | .int _, w, h | .float _, w, h | .text _, w, h | .flag _, w, h | .null, w, h
  | .enum _, w, h => by
      cases w <;> simp_all [filled, same]

/-- Items of one structure are filled alike. -/
theorem sameItems_filled {claims : Claims} : (vs ws : List Value) → sameItems vs ws = true →
    sameItems (filledItems claims vs) (filledItems claims ws) = true
  | [], ws, h => by cases ws <;> simp_all [sameItems, filledItems]
  | v :: vs, [], h => by simp [sameItems] at h
  | v :: vs, w :: ws, h => by
      simp only [sameItems, Bool.and_eq_true] at h
      simp [filledItems, sameItems, same_filled v w h.1, sameItems_filled vs ws h.2]

/-- Entries of one structure are filled alike, under keys that stay. -/
theorem sameEntries_filled {claims : Claims} : (es fs : List (String × Value)) →
    sameEntries es fs = true → sameEntries (filledEntries claims es) (filledEntries claims fs) = true
  | [], fs, h => by cases fs <;> simp_all [sameEntries, filledEntries]
  | (j, v) :: es, [], h => by simp [sameEntries] at h
  | (j, v) :: es, (k, w) :: fs, h => by
      simp only [sameEntries, Bool.and_eq_true] at h
      simp [filledEntries, sameEntries, h.1.1, same_filled v w h.1.2,
        sameEntries_filled es fs h.2]

end

end Value

namespace Filter

mutual

/-- The filter with its claims in place of variables. -/
def filled (claims : Claims) : Filter → Filter
  | .compare field op operand => .compare field op (operand.filled claims)
  | .edge field inner => .edge field (filled claims inner)
  | .not inner => .not (filled claims inner)
  | .all parts => .all (filledParts claims parts)
  | .any parts => .any (filledParts claims parts)
  | f => f

def filledParts (claims : Claims) : List Filter → List Filter
  | [] => []
  | f :: fs => filled claims f :: filledParts claims fs

end

mutual

/-- **Where each variable has a claim, binding fills them in.** -/
theorem bind?_eq_filled {claims : Claims} : (f : Filter) →
    (∀ name ∈ f.occurrences, claims.has name = true) → f.bind? claims = some (f.filled claims)
  | .compare _ _ operand, h => by
      rw [bind?, filled, Value.bind?_eq_filled operand (by simpa [occurrences] using h),
        Option.map_some]
  | .edge _ inner, h | .not inner, h => by
      rw [bind?, filled, bind?_eq_filled inner (by simpa [occurrences] using h), Option.map_some]
  | .all parts, h | .any parts, h => by
      rw [bind?, filled, bindParts?_eq_filled parts (by simpa [occurrences] using h),
        Option.map_some]
  | .nothing, _ | .has _, _ | .ids _, _ | .isType _, _ => by simp [bind?, filled]

/-- Parts of which every variable has a claim are bound to the filled parts. -/
theorem bindParts?_eq_filled {claims : Claims} : (fs : List Filter) →
    (∀ name ∈ occurrencesParts fs, claims.has name = true) →
    bindParts? claims fs = some (filledParts claims fs)
  | [], _ => by rw [bindParts?, filledParts]
  | f :: fs, h => by
      simp only [occurrencesParts, List.mem_append, or_imp, forall_and] at h
      simp [bindParts?, filledParts, bind?_eq_filled f h.1, bindParts?_eq_filled fs h.2]

end

mutual

/-- **Filters of one structure are filled alike.** -/
theorem same_filled {claims : Claims} : (f g : Filter) → same f g = true →
    same (f.filled claims) (g.filled claims) = true
  | .compare _ _ v, g, h => by
      cases g <;> simp [same] at h
      simp [filled, same, h.1, Value.same_filled v _ h.2]
  | .edge _ inner, g, h => by
      cases g <;> simp [same] at h
      simp [filled, same, h.1, same_filled inner _ h.2]
  | .not inner, g, h => by
      cases g <;> simp [same] at h
      simp [filled, same, same_filled inner _ h]
  | .all parts, g, h | .any parts, g, h => by
      cases g <;> simp [same] at h
      simp [filled, same, sameParts_filled parts _ h]
  | .nothing, g, h | .has _, g, h | .ids _, g, h | .isType _, g, h => by
      cases g <;> simp_all [filled, same]

/-- Parts of one structure are filled alike. -/
theorem sameParts_filled {claims : Claims} : (fs gs : List Filter) → sameParts fs gs = true →
    sameParts (filledParts claims fs) (filledParts claims gs) = true
  | [], gs, h => by cases gs <;> simp_all [sameParts, filledParts]
  | f :: fs, [], h => by simp [sameParts] at h
  | f :: fs, g :: gs, h => by
      simp only [sameParts, Bool.and_eq_true] at h
      simp [filledParts, sameParts, same_filled f g h.1, sameParts_filled fs gs h.2]

end

/-- Reading filled parts in turn is reading the parts in turn, each of them filled when it is its
turn. -/
theorem inTurn_filledParts {v : Filter → Option Bool} {stop : Bool} {claims : Claims}
    (fs : List Filter) :
    inTurn v stop (filledParts claims fs) = inTurn (fun f => v (f.filled claims)) stop fs := by
  induction fs with
  | nil => rw [filledParts, inTurn, inTurn]
  | cons f fs ih => rw [filledParts, inTurn, inTurn, ih]

/-- **What is read off filled filters is a reading.** -/
theorem Reading.filled {v : Filter → Option Bool} (hv : Reading v) (claims : Claims) :
    Reading fun f => v (f.filled claims) where
  nothing := by
    rw [Filter.filled]
    · exact hv.nothing
    all_goals simp
  all parts := by rw [Filter.filled, hv.all, inTurn_filledParts]
  any parts := by rw [Filter.filled, hv.any, inTurn_filledParts]
  not f := by rw [Filter.filled, hv.not]
  congr f g h := hv.congr _ _ (same_filled f g h)

end Filter

end GraphWarden
