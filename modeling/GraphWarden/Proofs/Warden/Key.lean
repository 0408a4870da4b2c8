import GraphWarden.Proofs.Claims.Text
import GraphWarden.Proofs.Warden.Memory

/-!
# What a key tells

The bytes of a key are the generation in eight bytes, and then texts that are set off by a
separator: the type, the operation, and of each claim its name and what it holds.  They are
taken apart from behind.  What a claim holds is shown without the separator, the names of
operations are free of it, and an operation's name is never what a claim shows; of types
nothing needs to be known, because a key starts with one.

A claim's name may hold the separator, and then two sets of claims can have the same bytes
(`claims_share_bytes`).  Where no name holds it, the bytes tell the key
(`eq_of_bytes_eq`).
-/

namespace GraphWarden.OutcomeKey

/-! ### The characters of a key -/

/-- What stands between the texts of a key. -/
def separator : Char := '\x00'

/-- The characters of a claim. -/
def claimChars (e : String × Claim) : List Char :=
  separator :: e.1.toList ++ separator :: e.2.toValue.display.toList

/-- The characters of a key, but for the generation. -/
def chars (typeName : String) (op : Operation) (entries : Entries Claim) : List Char :=
  typeName.toList ++ separator :: op.name.toList ++ entries.flatMap claimChars

/-- The bytes of texts in a row are the bytes of the texts, in a row. -/
theorem textBytes_append (cs ds : List Char) :
    textBytes (String.ofList (cs ++ ds))
      = textBytes (String.ofList cs) ++ textBytes (String.ofList ds) := by
  unfold textBytes
  rw [String.ofList_append, String.toByteArray_append]
  simp

/-- A separator is one byte, and that byte is zero. -/
theorem textBytes_separator (cs : List Char) :
    textBytes (String.ofList (separator :: cs)) = 0 :: textBytes (String.ofList cs) :=
  textBytes_append [separator] cs

/-- A key consists of the generation in eight bytes and of one text with everything else. -/
theorem bytes_eq (k : OutcomeKey) :
    k.bytes = numberBytes 8 k.generation ++
      textBytes (String.ofList (chars k.typeName k.op k.claims.byName.entries)) := by
  have hclaims : ∀ entries : Entries Claim,
      textBytes (String.ofList (entries.flatMap claimChars)) = entries.flatMap claimBytes := by
    intro entries
    induction entries with
    | nil => rfl
    | cons e entries ih =>
        simp only [List.flatMap_cons, textBytes_append, ih, claimChars, claimBytes,
          List.cons_append, textBytes_separator, String.ofList_toList]
  simp only [bytes, chars, textBytes_append, hclaims, List.cons_append, textBytes_separator,
    String.ofList_toList, List.append_assoc]

/-! ### The generation -/

/-- A number takes the same count of bytes however great it is, so what stands behind it is found.
-/
theorem length_numberBytes (count n : Nat) : (numberBytes count n).length = count := by
  induction count generalizing n with
  | zero => rfl
  | succ count ih => rw [numberBytes, List.length_cons, ih]

/-- A number is told by as many bytes as it needs. -/
theorem numberBytes_inj {count m n : Nat} (hm : m < 256 ^ count) (hn : n < 256 ^ count)
    (h : numberBytes count m = numberBytes count n) : m = n := by
  induction count generalizing m n with
  | zero => omega
  | succ count ih =>
      obtain ⟨hlow, hrest⟩ := List.cons.inj h
      have hmod : m % 256 = n % 256 := by simpa using congrArg UInt8.toNat hlow
      have hdiv : m / 256 = n / 256 := by
        refine ih ?_ ?_ hrest
        · rw [Nat.pow_succ] at hm
          omega
        · rw [Nat.pow_succ] at hn
          omega
      omega

/-! ### Types, operations and claims -/

/-- Claims whose names are free of the separator and whose numbers are finite. -/
def Separable (entries : Entries Claim) : Prop :=
  ∀ e ∈ entries, separator ∉ e.1.toList ∧ e.2.Bounded

/-- What a claim holds is displayed without a separator: it is a control character, and those are
escaped. -/
theorem separator_not_mem_display {c : Claim} (hc : c.Bounded) :
    separator ∉ c.toValue.display.toList := by
  intro hmem
  exact absurd (Claim.plain_display hc separator hmem) (by decide)

theorem separator_not_mem_opName (op : Operation) : separator ∉ op.name.toList := by
  cases op <;> decide

/-- No claim shows the name of an operation: data do not start with its letter. -/
theorem opName_ne_display (op : Operation) {c : Claim} (hc : c.Bounded) :
    op.name.toList ≠ c.toValue.display.toList := by
  intro h
  obtain ⟨d, rest, hd, hkind⟩ := Json.head_compact (Claim.bounded_toJson c hc)
  rw [Claim.display_eq, hd] at h
  have hletters : (op.name.toList.take 1).all
      (fun c => Json.kindOf c ∉ ['n', 't', 'f', '0', '"', '[', '\x7b']) = true := by
    cases op <;> decide
  have hletter : Json.kindOf d ∉ ['n', 't', 'f', '0', '"', '[', '\x7b'] := by
    rw [h] at hletters
    exact of_decide_eq_true (List.all_eq_true.1 hletters d List.mem_cons_self)
  rw [hkind] at hletter
  refine hletter ?_
  cases c.toValue.toJson with
  | flag b => cases b <;> decide
  | _ => simp [Json.opening]

/-- A key's characters, once more claims stand behind others. -/
theorem chars_concat (typeName : String) (op : Operation) (entries : Entries Claim)
    (e : String × Claim) :
    chars typeName op (entries ++ [e])
      = (chars typeName op entries ++ separator :: e.1.toList)
        ++ separator :: e.2.toValue.display.toList := by
  simp [chars, claimChars]

/-- The text of a key tells the type, the operation and the claims, as long as no claim's name
holds a separator.  It is taken apart claim by claim, the last one first. -/
theorem chars_inj {typeName typeName' : String} {op op' : Operation}
    {entries entries' : Entries Claim} (hentries : Separable entries)
    (hentries' : Separable entries')
    (h : chars typeName op entries = chars typeName' op' entries') :
    typeName = typeName' ∧ op = op' ∧ entries = entries' := by
  induction entries using List.reverseRecOn generalizing entries' with
  | nil =>
      rcases List.eq_nil_or_concat entries' with rfl | ⟨front', e', rfl⟩
      · have hname := separator_not_mem_opName
        simp only [chars, List.flatMap_nil, List.append_nil] at h
        obtain ⟨htype, hop⟩ := eq_of_append_cons h (hname op) (hname op')
        exact ⟨String.toList_inj.1 htype, Operation.name_injective (String.toList_inj.1 hop), rfl⟩
      · -- what stands last would be an operation's name and what a claim shows
        have he' := (hentries' e' (by simp)).2
        rw [List.concat_eq_append, chars_concat] at h
        simp only [chars, List.flatMap_nil, List.append_nil] at h
        obtain ⟨_, hlast⟩ :=
          eq_of_append_cons h (separator_not_mem_opName op) (separator_not_mem_display he')
        exact absurd hlast (opName_ne_display op he')
  | append_singleton front e ih =>
      have he := hentries e (by simp)
      rw [chars_concat] at h
      rcases List.eq_nil_or_concat entries' with rfl | ⟨front', e', rfl⟩
      · simp only [chars, List.flatMap_nil, List.append_nil] at h
        obtain ⟨_, hlast⟩ :=
          eq_of_append_cons h (separator_not_mem_display he.2) (separator_not_mem_opName op')
        exact absurd hlast.symm (opName_ne_display op' he.2)
      · have he' := hentries' e' (by simp)
        rw [List.concat_eq_append, chars_concat] at h
        obtain ⟨hfront, hdisplay⟩ :=
          eq_of_append_cons h (separator_not_mem_display he.2) (separator_not_mem_display he'.2)
        obtain ⟨hback, hname⟩ := eq_of_append_cons hfront he.1 he'.1
        obtain ⟨htype, hop, rfl⟩ := ih (fun e he => hentries e (List.mem_append_left _ he))
          (fun e he => hentries' e (by simp [he])) hback
        have hsame : e = e' := Prod.ext (String.toList_inj.1 hname)
          (Claim.display_inj he.2 he'.2 (String.toList_inj.1 hdisplay))
        rw [hsame, List.concat_eq_append]
        exact ⟨htype, hop, rfl⟩

/-- The bytes of a key tell the key, when its claims are separable. -/
theorem eq_of_separable {k k' : OutcomeKey} (hgeneration : k.generation < 256 ^ 8)
    (hgeneration' : k'.generation < 256 ^ 8) (hk : Separable k.claims.byName.entries)
    (hk' : Separable k'.claims.byName.entries) (h : k.bytes = k'.bytes) : k = k' := by
  rw [bytes_eq, bytes_eq] at h
  obtain ⟨hnumber, htext⟩ := List.append_inj h (by simp only [length_numberBytes])
  have hchars := String.ofList_inj.1 (textBytes_inj htext)
  obtain ⟨htype, hop, hentries⟩ := chars_inj hk hk' hchars
  obtain ⟨generation, typeName, op, ⟨⟨entries, rising⟩⟩⟩ := k
  obtain ⟨generation', typeName', op', ⟨⟨entries', rising'⟩⟩⟩ := k'
  obtain rfl := numberBytes_inj hgeneration hgeneration' hnumber
  simp only at htype hop hentries
  subst htype hop hentries
  rfl

/-- Claims that were read from a payload are displayed without a separator.  That their names are
free of it too has to be asked for. -/
theorem separable_of_readable {claims : Claims} (hread : claims.Readable)
    (hnames : ∀ name, claims.has name = true → separator ∉ name.toList) :
    Separable claims.byName.entries := by
  intro e he
  refine ⟨hnames e.1 ?_, hread.bounded e he⟩
  have hfind : claims.find? e.1 = some e.2 := Keyed.find?_eq_some_iff.2 he
  rw [Claims.has, hfind]
  rfl

/-- It may be asked of all names that are claimed, or of all entries. -/
theorem separator_not_mem_names {claims : Claims}
    (h : ∀ e ∈ claims.byName.entries, separator ∉ e.1.toList) (name : String)
    (hname : claims.has name = true) : separator ∉ name.toList := by
  obtain ⟨claim, hfind⟩ := Option.isSome_iff_exists.1 hname
  exact h _ (Keyed.find?_eq_some_iff.1 hfind)

/-- **The bytes of a key tell the key**: its generation, type, operation and claims, where no
claim's name holds the separator. -/
theorem eq_of_bytes_eq {k k' : OutcomeKey} (hgeneration : k.generation ≤ Word.natMax)
    (hgeneration' : k'.generation ≤ Word.natMax) (hread : k.claims.Readable)
    (hread' : k'.claims.Readable)
    (hnames : ∀ name, k.claims.has name = true → separator ∉ name.toList)
    (hnames' : ∀ name, k'.claims.has name = true → separator ∉ name.toList)
    (h : k.bytes = k'.bytes) : k = k' := by
  have hword : Word.natMax < 256 ^ 8 := by decide
  exact eq_of_separable (lt_of_le_of_lt hgeneration hword) (lt_of_le_of_lt hgeneration' hword)
    (separable_of_readable hread hnames) (separable_of_readable hread' hnames') h

/-- A payload with two claims. -/
def honestPayload : Json :=
  .object [("a", .text "x"), ("b", .text "y")]

def honestClaims : Claims :=
  .ofEntries [("a", .text "x"), ("b", .text "y")]

theorem honestClaims_read : Claims.ofPayload none honestPayload = .ok honestClaims := rfl

/-- Its numbers are those of the interchange form, as it has none. -/
theorem honestPayload_regular : honestPayload.Regular :=
  ⟨trivial, trivial, trivial⟩

/-- The same, written the other way round. -/
def reversedPayload : Json :=
  .object [("b", .text "y"), ("a", .text "x")]

/-- The same payload with its entries the other way round has the same key. -/
theorem reversed_payload_has_key :
    ∃ claims, Claims.ofPayload none reversedPayload = .ok claims ∧
      bytes ⟨1, "Todo", .query, honestClaims⟩ = bytes ⟨1, "Todo", .query, claims⟩ ∧
      (⟨1, "Todo", .query, honestClaims⟩ : OutcomeKey) = ⟨1, "Todo", .query, claims⟩ := by
  have hread : Claims.ofPayload none reversedPayload
      = .ok (.ofEntries [("b", .text "y"), ("a", .text "x")]) := rfl
  have hbytes : bytes ⟨1, "Todo", .query, honestClaims⟩
      = bytes ⟨1, "Todo", .query, .ofEntries [("b", .text "y"), ("a", .text "x")]⟩ := by
    decide +kernel
  exact ⟨_, hread, hbytes, eq_of_bytes_eq (by decide) (by decide)
    ⟨none, honestPayload, honestPayload_regular, honestClaims_read⟩
    ⟨none, reversedPayload, ⟨trivial, trivial, trivial⟩, hread⟩
    (separator_not_mem_names (by decide +kernel)) (separator_not_mem_names (by decide +kernel))
    hbytes⟩

/-- A payload with one claim, whose name holds what would stand between the two. -/
def forgedPayload : Json :=
  .object [("a\x00\"x\"\x00b", .text "y")]

/-- The forged claim passes for the two honest ones. -/
theorem claims_share_bytes :
    honestPayload.Regular ∧ Claims.ofPayload none honestPayload = .ok honestClaims ∧
      ∃ claims, forgedPayload.Regular ∧ Claims.ofPayload none forgedPayload = .ok claims ∧
        bytes ⟨1, "Todo", .query, honestClaims⟩ = bytes ⟨1, "Todo", .query, claims⟩ ∧
        honestClaims ≠ claims := by
  refine ⟨honestPayload_regular, honestClaims_read,
    .ofEntries [("a\x00\"x\"\x00b", .text "y")], ⟨trivial, trivial⟩, rfl, by decide +kernel, ?_⟩
  intro h
  have hsize := congrArg Claims.size h
  exact absurd hsize (by decide +kernel)

end GraphWarden.OutcomeKey
