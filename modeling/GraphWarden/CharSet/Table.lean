import GraphWarden.CharSet.Basic

/-!
# Tables of characters

The sets that the Unicode standard fixes are written as tables, in rows of items
separated by single spaces.  An item is a code point in hexadecimal digits, a
range `first-last`, or every second code point of a range, `first-last/2`, which
is how small and capital letters alternate.
-/

namespace GraphWarden.CharSet

/-- The value of a hexadecimal digit of a table. -/
def tableDigit (c : Char) : Nat :=
  if c ≤ '9' then c.toNat - '0'.toNat else c.toNat - 'A'.toNat + 10

/-- The code point that an item's digits spell. -/
def tableCode (digits : String) : Nat :=
  digits.toList.foldl (fun n c => 16 * n + tableDigit c) 0

/-- Every second code point from one to another. -/
def alternate (first last : Nat) : List CodeRange :=
  (List.range ((last - first) / 2 + 1)).map fun i => ⟨first + 2 * i, first + 2 * i⟩

/-- The ranges that an item stands for. -/
def tableItem (item : String) : List CodeRange :=
  match item.splitOn "-" with
  | [first, last] =>
    match last.splitOn "/" with
    | [last, _] => alternate (tableCode first) (tableCode last)
    | _ => [⟨tableCode first, tableCode last⟩]
  | _ => [⟨tableCode item, tableCode item⟩]

/-- The set that the rows of a table list. -/
def ofTable (rows : List String) : CharSet :=
  ofRanges (rows.flatMap fun row => (row.splitOn " ").flatMap tableItem)

end GraphWarden.CharSet
