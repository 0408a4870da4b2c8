import GraphWarden.Visibility

/-!
# Remembered outcomes

What a rule leaves visible depends on the schema, the type, the operation and the
claims, and on nothing that is stored; so it can be remembered.  An entry is kept
under the key bytes of what it was worked out for.

A memo is bounded: before an entry is added to a full memo, entries that are past
their lifetime are dropped, and if it is still full then a tenth of the capacity,
but at least one entry, those that were put in first.  Entries are listed in the
order in which they were put in.
-/

namespace GraphWarden

/-- What an outcome was worked out for. -/
structure OutcomeKey where
  generation : Nat
  typeName : String
  op : Operation
  claims : Claims

namespace OutcomeKey

/-- The bytes of a text. -/
def textBytes (s : String) : List UInt8 :=
  s.toByteArray.data.toList

/-- A number in so many bytes, the lowest first. -/
def numberBytes : (count : Nat) → Nat → List UInt8
  | 0, _ => []
  | count + 1, n => UInt8.ofNat (n % 256) :: numberBytes count (n / 256)

/-- The bytes of a claim. -/
def claimBytes (claim : String × Claim) : List UInt8 :=
  0 :: textBytes claim.1 ++ 0 :: textBytes claim.2.toValue.display

/-- The bytes under which an outcome is remembered: the generation, the type, the
operation, and the claims in the order of their names. -/
def bytes (k : OutcomeKey) : List UInt8 :=
  numberBytes 8 k.generation ++ textBytes k.typeName ++ 0 :: textBytes k.op.name
    ++ k.claims.byName.entries.flatMap claimBytes

end OutcomeKey

/-- How long an entry is of use. -/
inductive Lifetime where
  | endless
  /-- Until the moment after it was put in. -/
  | momentary
deriving DecidableEq, Repr

/-- Remembered outcomes, and counts of how they were used. -/
structure Memo where
  capacity : Nat
  lifetime : Lifetime
  /-- The entries with their keys, in the order in which they were put in. -/
  entries : List (List UInt8 × Visibility) := []
  hits : Nat := 0
  misses : Nat := 0
  expirations : Nat := 0

namespace Memo

/-- What is kept under a key. -/
def find? (m : Memo) (key : List UInt8) : Option Visibility :=
  (m.entries.find? fun e => e.1 == key).map Prod.snd

/-- The entries without the one under a key. -/
def others (m : Memo) (key : List UInt8) : List (List UInt8 × Visibility) :=
  m.entries.filter fun e => e.1 != key

/-- Look an outcome up.  An entry past its lifetime is dropped and does not count. -/
def get (m : Memo) (k : OutcomeKey) : Option Visibility × Memo :=
  match m.find? k.bytes with
  | none => (none, { m with misses := m.misses + 1 })
  | some v =>
    match m.lifetime with
    | .endless => (some v, { m with hits := m.hits + 1 })
    | .momentary =>
      (none, { m with
        entries := m.others k.bytes
        expirations := m.expirations + 1
        misses := m.misses + 1 })

/-- The entries that are within their lifetime. -/
def fresh (m : Memo) : List (List UInt8 × Visibility) :=
  match m.lifetime with
  | .endless => m.entries
  | .momentary => []

/-- Make room for an entry, when the memo is full. -/
def evict (m : Memo) : Memo :=
  if m.entries.length < m.capacity then m
  else if m.fresh.length < m.capacity then { m with entries := m.fresh }
  else { m with entries := m.fresh.drop (max (m.capacity / 10) 1) }

/-- Remember an outcome, in place of the one under its key. -/
def put (m : Memo) (k : OutcomeKey) (v : Visibility) : Memo :=
  let room := m.evict
  { room with entries := room.others k.bytes ++ [(k.bytes, v)] }

/-- Forget everything, the counts included. -/
def clear (m : Memo) : Memo :=
  { capacity := m.capacity, lifetime := m.lifetime }

/-- The share of look-ups that found an entry; zero when there were none. -/
def hitRate (m : Memo) : Binary64 :=
  (Binary64.ofNat m.hits).dividedBy (Binary64.ofNat (m.hits + m.misses))

end Memo

end GraphWarden
