import GraphWarden.Keyed
import GraphWarden.Number.Layout

/-!
# Data texts

Token payloads, descriptors, records and reports are data in the usual
interchange form: null, truth values, numbers, texts, lists and objects.  An
integer and a number with a fraction or exponent are different data, and an
object is kept as the list of its entries in the order in which they were
written, repeats included; `Json.normalized` sorts the entries and lets the last
of equal keys win.

Two layouts are written: `compact`, without any space, and `pretty`, with two
spaces of indentation for each level.
-/

namespace GraphWarden

/-- A datum in the interchange form. -/
inductive Json where
  | null
  | flag (b : Bool)
  | int (i : Int)
  | float (x : Binary64)
  | text (s : String)
  | list (items : List Json)
  | object (entries : List (String × Json))

namespace Json

instance : Inhabited Json := ⟨null⟩

/-- A hexadecimal digit in lower case. -/
def hexDigit (n : Nat) : Char :=
  if n < 10 then Char.ofNat (48 + n) else Char.ofNat (87 + n)

/-- A character inside a quoted text. -/
def escaped (c : Char) : List Char :=
  if c = '"' then ['\\', '"']
  else if c = '\\' then ['\\', '\\']
  else if c = '\n' then ['\\', 'n']
  else if c = '\r' then ['\\', 'r']
  else if c = '\t' then ['\\', 't']
  else if c.toNat = 8 then ['\\', 'b']
  else if c.toNat = 12 then ['\\', 'f']
  else if c.toNat < 32 then ['\\', 'u', '0', '0', hexDigit (c.toNat / 16), hexDigit (c.toNat % 16)]
  else [c]

/-- A text in quotes: the quote, the backslash and the control characters are
escaped, everything else stands as it is. -/
def quoted (s : String) : String :=
  String.ofList ('"' :: (s.toList.flatMap escaped ++ ['"']))

mutual

/-- The layout without spaces. -/
def compact : Json → String
  | .null => "null"
  | .flag b => if b then "true" else "false"
  | .int i => toString i
  | .float x => x.dataText
  | .text s => quoted s
  | .list items => "[" ++ compactItems items ++ "]"
  | .object entries => "\x7b" ++ compactEntries entries ++ "\x7d"

def compactItems : List Json → String
  | [] => ""
  | [j] => compact j
  | j :: js => compact j ++ "," ++ compactItems js

def compactEntries : List (String × Json) → String
  | [] => ""
  | [(k, j)] => quoted k ++ ":" ++ compact j
  | (k, j) :: es => quoted k ++ ":" ++ compact j ++ "," ++ compactEntries es

end

/-- The start of a line at a level of indentation. -/
def margin (level : Nat) : String :=
  "\n" ++ String.ofList (List.replicate (2 * level) ' ')

mutual

/-- The layout with one item or entry per line; an empty list or object stays on
its line. -/
def pretty (level : Nat) : Json → String
  | .list (j :: js) => "[" ++ prettyItems (level + 1) (j :: js) ++ margin level ++ "]"
  | .object (e :: es) => "\x7b" ++ prettyEntries (level + 1) (e :: es) ++ margin level ++ "\x7d"
  | .list [] => "[]"
  | .object [] => "\x7b\x7d"
  | .null => "null"
  | .flag b => if b then "true" else "false"
  | .int i => toString i
  | .float x => x.dataText
  | .text s => quoted s

def prettyItems (level : Nat) : List Json → String
  | [] => ""
  | [j] => margin level ++ pretty level j
  | j :: js => margin level ++ pretty level j ++ "," ++ prettyItems level js

def prettyEntries (level : Nat) : List (String × Json) → String
  | [] => ""
  | [(k, j)] => margin level ++ quoted k ++ ": " ++ pretty level j
  | (k, j) :: es => margin level ++ quoted k ++ ": " ++ pretty level j ++ "," ++ prettyEntries level es

end

mutual

/-- The same datum with the entries of every object in key order, the last of
equal keys in force. -/
def normalized : Json → Json
  | .list items => .list (normalizedItems items)
  | .object entries => .object (Entries.ofList (normalizedEntries entries))
  | .null => .null
  | .flag b => .flag b
  | .int i => .int i
  | .float x => .float x
  | .text s => .text s

def normalizedItems : List Json → List Json
  | [] => []
  | j :: js => normalized j :: normalizedItems js

def normalizedEntries : List (String × Json) → List (String × Json)
  | [] => []
  | (k, j) :: es => (k, normalized j) :: normalizedEntries es

end

end Json

end GraphWarden
