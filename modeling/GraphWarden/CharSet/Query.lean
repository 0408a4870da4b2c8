import GraphWarden.CharSet.Age
import GraphWarden.CharSet.Break

/-!
# Sets of characters by name

A name alone stands for a property, a general category or a script, in this
order.  A property and a value stand for the characters with that value: of the
general category, the script with or without what it shares, the age, or the
classes at breaks.  Names are compared loosely.
-/

namespace GraphWarden.CharSet

/-- A name as it is compared: in small letters, without `is` in front, and
without blanks, low lines, hyphens and what is not ASCII.  Only `isc` keeps its
front, for it is no other name of `c`. -/
def plainName (name : List Char) : String :=
  let plain (cs : List Char) : List Char :=
    (cs.filter fun c => c.toNat < 0x80 && c != ' ' && c != '_' && c != '-').map Char.toLower
  match name with
  | i :: s :: rest =>
    if (i = 'i' ∨ i = 'I') ∧ (s = 's' ∨ s = 'S') then
      if plain rest = ['c'] then "isc" else String.ofList (plain rest)
    else String.ofList (plain name)
  | _ => String.ofList (plain name)

/-- The set of a name in a list of named sets. -/
def find? (sets : List (List String × CharSet)) (name : String) : Option CharSet :=
  (sets.find? (·.1.contains name)).map Prod.snd

/-- The property of a name.  Three names that properties share with general
categories belong to these. -/
def property? (name : String) : Option CharSet :=
  if ["cf", "lc", "sc"].contains name then none else find? properties name

/-- The set that a name stands for. -/
def ofName? (name : List Char) : Option CharSet :=
  let name := plainName name
  property? name <|> find? generalCategories name <|> Script.byName? name

/-- The set of the characters with a value of a property. -/
def ofValue? (property value : List Char) : Option CharSet :=
  let property := plainName property
  let value := plainName value
  if ["gc", "generalcategory"].contains property then find? generalCategories value
  else if ["sc", "script"].contains property then Script.byName? value
  else if ["scx", "scriptextensions"].contains property then Script.extendedByName? value
  else if property = "age" then age? value
  else if ["gcb", "graphemeclusterbreak"].contains property then find? graphemeBreaks value
  else if ["wb", "wordbreak"].contains property then find? wordBreaks value
  else if ["sb", "sentencebreak"].contains property then find? sentenceBreaks value
  else none

end GraphWarden.CharSet
