import GraphWarden.Value.Compare
import GraphWarden.Text.Blank

/-!
# Claims

A request speaks for somebody.  What is known about them is a set of claims,
read once from a verified token and never changed: a map from names to values
that hold no objects and no variables.  A claim that is absent is not a claim
that is empty or false, so look-up answers with an `Option`.

A token payload is an object.  Its claims are the values at the ends of its key
paths, the keys of a path joined by dots; `Claims.leaves` lists them in the order
of a walk that takes keys in rising order, and of two leaves with one name the
later counts.
-/

namespace GraphWarden

/-- The value of a claim. -/
inductive Claim where
  | null
  | flag (b : Bool)
  | int (i : Int)
  | float (x : Binary64)
  | text (s : String)
  | list (items : List Claim)

namespace Claim

mutual

/-- The claim in the language of values. -/
def toValue : Claim → Value
  | .null => .null
  | .flag b => .flag b
  | .int i => .int i
  | .float x => .float x
  | .text s => .text s
  | .list items => .list (toValues items)

def toValues : List Claim → List Value
  | [] => []
  | c :: cs => toValue c :: toValues cs

end

/-- The claim that a number holds. -/
def ofInt (i : Int) : Claim :=
  if Word.fits i then .int i else .float (Binary64.ofInt i)

/-- The claim that a null, a truth value, a number or a text holds. -/
def ofScalar? : Json → Option Claim
  | .null => some .null
  | .flag b => some (.flag b)
  | .int i => some (ofInt i)
  | .float x => some (.float x)
  | .text s => some (.text s)
  | .list _ | .object _ => none

/-- The claim that a datum other than an object holds.  Of a list only the items
that are neither lists nor objects are kept. -/
def ofJson? : Json → Option Claim
  | .list items => some (.list (items.filterMap ofScalar?))
  | j => ofScalar? j

mutual

/-- A claim that is taken as a value has no variables in it. -/
theorem occurrences_toValue : (c : Claim) → c.toValue.occurrences = []
  | .null | .flag _ | .int _ | .float _ | .text _ => by simp [toValue, Value.occurrences]
  | .list items => by simp [toValue, Value.occurrences, occurrences_toValues items]

/-- Several claims have no variables in them either. -/
theorem occurrences_toValues : (cs : List Claim) → Value.occurrencesItems (toValues cs) = []
  | [] => by simp [toValues, Value.occurrencesItems]
  | c :: cs => by
    simp [toValues, Value.occurrencesItems, occurrences_toValue c, occurrences_toValues cs]

end

end Claim

/-- The claims of a request, by name. -/
structure Claims where
  byName : Keyed Claim

namespace Claims

/-- The claims of an anonymous request: none. -/
def none : Claims := ⟨Keyed.empty⟩

instance : Inhabited Claims := ⟨none⟩

/-- What is claimed under a name, if anything is. -/
def find? (cs : Claims) (name : String) : Option Claim :=
  cs.byName.find? name

/-- Whether something is claimed under a name. -/
def has (cs : Claims) (name : String) : Bool :=
  (cs.find? name).isSome

/-- Whether the request is anonymous. -/
def isEmpty (cs : Claims) : Bool := cs.byName.isEmpty

/-- How many names are claimed. -/
def size (cs : Claims) : Nat := cs.byName.size

/-- A claim's name without the dollar sign that may stand in front of it. -/
def bareName (name : String) : String :=
  match name.toList with
  | '$' :: rest => String.ofList rest
  | _ => name

/-- The claims with one more; its name may be given with a dollar sign. -/
def claiming (cs : Claims) (name : String) (claim : Claim) : Claims :=
  ⟨cs.byName.put (bareName name) claim⟩

/-- Why a token payload yields no claims. -/
inductive Flaw where
  | payloadNotObject
  | namespaceNotObject (name : String)
deriving DecidableEq, Repr

/-- The wording of a flaw. -/
def Flaw.message : Flaw → String
  | .payloadNotObject => "token payload must be a JSON object"
  | .namespaceNotObject name => "claims namespace '" ++ name ++ "' is not an object"

/-- The name of a key below a path. -/
def below (path : Option String) (key : String) : String :=
  match path with
  | some p => p ++ "." ++ key
  | .none => key

mutual

/-- The leaves at or below a datum that stands under a name, in walking order. -/
def leavesAt (name : String) : Json → Entries Claim
  | .object entries => leaves (some name) entries
  | j => (Claim.ofJson? j).toList.map fun c => (name, c)

/-- The leaves below a path, in walking order. -/
def leaves (path : Option String) : List (String × Json) → Entries Claim
  | [] => []
  | (key, j) :: es => leavesAt (below path key) j ++ leaves path es

end

/-- The claims of an object's leaves. -/
def ofEntries (entries : List (String × Json)) : Claims :=
  ⟨Keyed.ofList (leaves .none entries)⟩

/-- The claims of a token payload.  With a namespace that is not empty they are
read from the object under that key, and there are none when the key is missing;
otherwise from the payload itself. -/
def ofPayload (space : Option String) (payload : Json) : Except Flaw Claims :=
  match payload.normalized with
  | .object entries =>
    match space.filter (· ≠ "") with
    | .none => .ok (ofEntries entries)
    | some name =>
      match Entries.find? name entries with
      | .none => .ok none
      | some (.object inner) => .ok (ofEntries inner)
      | some _ => .error (.namespaceNotObject name)
  | _ => .error .payloadNotObject

end Claims

end GraphWarden
