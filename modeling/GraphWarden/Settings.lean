import GraphWarden.Number.Word
import GraphWarden.Timeline.Basic
import GraphWarden.Text.Blank

/-!
# Settings

Limits on calls to the store and on the memo have defaults, which the environment
may override.  A setting that does not read as what it should be is passed over.
-/

namespace GraphWarden

/-- The settings of a warden. -/
structure Settings where
  policy : Policy := {}
  memoEnabled : Bool := true
  memoCapacity : Nat := 10000
  /-- How long an entry of the memo is of use, in milliseconds. -/
  memoLifetime : Nat := 60000
  meterEnabled : Bool := true

namespace Settings

/-- A natural up to a limit: digits after an optional plus sign. -/
def natural? (limit : Nat) (cs : List Char) : Option Nat := do
  let ds := match cs with
    | '+' :: rest => rest
    | rest => rest
  if ds.isEmpty then none
  else
    let n := Json.ofDigits (← ds.mapM Json.digit?)
    if n ≤ limit then some n else none

/-- A truth value by its name. -/
def truth? (cs : List Char) : Option Bool :=
  if cs = "true".toList then some true
  else if cs = "false".toList then some false
  else none

/-- The settings that an environment makes. -/
def ofEnvironment (lookup : String → Option String) : Settings :=
  let read {α : Type} (name : String) (parse : List Char → Option α) : Option α :=
    (lookup name).bind fun s => parse (Text.trim s.toList)
  let word := natural? Word.natMax
  let defaults : Settings := {}
  { defaults with
    policy := { defaults.policy with
      timeout := (read "AUTHZ_PROBE_TIMEOUT_MS" word).getD defaults.policy.timeout
      retries := (read "AUTHZ_PROBE_RETRIES" (natural? Word.halfMax)).getD defaults.policy.retries }
    memoCapacity := (read "AUTHZ_CACHE_SIZE" word).getD defaults.memoCapacity
    memoLifetime := ((read "AUTHZ_CACHE_TTL" word).map (1000 * ·)).getD defaults.memoLifetime
    memoEnabled := ((read "AUTHZ_DISABLE_CACHE" truth?).map not).getD defaults.memoEnabled }

end Settings

end GraphWarden
