import GraphWarden.Json.Basic
import GraphWarden.Number.Word

/-!
# Values

Rule literals, filter operands and stored fields share one language of values.
A variable stands for a claim; it occurs in compiled rules only, and binding
claims replaces it.  An enum value is a bare name, which compares equal to the
text of the same spelling.

The entries of an object are listed in key order; everything that builds an
object keeps to that.
-/

namespace GraphWarden

/-- A value of rules, filters and stored fields. -/
inductive Value where
  | variable (name : String)
  | int (i : Int)
  | float (x : Binary64)
  | text (s : String)
  | flag (b : Bool)
  | null
  | enum (name : String)
  | list (items : List Value)
  | object (entries : List (String × Value))

namespace Value

instance : Inhabited Value := ⟨null⟩

mutual

/-- The variables of a value, each occurrence, from left to right. -/
def occurrences : Value → List String
  | .variable name => [name]
  | .list items => occurrencesItems items
  | .object entries => occurrencesEntries entries
  | .int _ | .float _ | .text _ | .flag _ | .null | .enum _ => []

def occurrencesItems : List Value → List String
  | [] => []
  | v :: vs => occurrences v ++ occurrencesItems vs

def occurrencesEntries : List (String × Value) → List String
  | [] => []
  | (_, v) :: es => occurrences v ++ occurrencesEntries es

end

/-- The variables of a value in the order of their first occurrence. -/
def variableNames (v : Value) : List String :=
  Names.distinct v.occurrences

/-- The text of a text or an enum value, which patterns are matched against. -/
def asText : Value → Option String
  | .text s | .enum s => some s
  | _ => none

mutual

/-- The value as data; a variable becomes the text of its name after a dollar
sign, and an infinite number becomes null. -/
def toJson : Value → Json
  | .variable name => .text ("$" ++ name)
  | .int i => .int i
  | .float x => if x.isFinite then .float x else .null
  | .text s | .enum s => .text s
  | .flag b => .flag b
  | .null => .null
  | .list items => .list (toJsonItems items)
  | .object entries => .object (toJsonEntries entries)

def toJsonItems : List Value → List Json
  | [] => []
  | v :: vs => toJson v :: toJsonItems vs

def toJsonEntries : List (String × Value) → List (String × Json)
  | [] => []
  | (k, v) :: es => (k, toJson v) :: toJsonEntries es

end

/-- The value as it is shown in messages and in the text of a filter. -/
def display : Value → String
  | .variable name => "$" ++ name
  | v => v.toJson.compact

mutual

/-- The value of plain data; an integer outside the signed 64-bit range becomes
a number. -/
def ofJson : Json → Value
  | .null => .null
  | .flag b => .flag b
  | .int i => if Word.fits i then .int i else .float (Binary64.ofInt i)
  | .float x => .float x
  | .text s => .text s
  | .list items => .list (ofJsonItems items)
  | .object entries => .object (Entries.ofList (ofJsonEntries entries))

def ofJsonItems : List Json → List Value
  | [] => []
  | j :: js => ofJson j :: ofJsonItems js

def ofJsonEntries : List (String × Json) → List (String × Value)
  | [] => []
  | (k, j) :: es => (k, ofJson j) :: ofJsonEntries es

end

end Value

end GraphWarden
