import GraphWarden.Number.Layout
import GraphWarden.Number.Word

/-!
# Counting what was done

A meter counts requests, calls to the store and uses of the memo, and collects how
long requests took.  Of the collected times it gives the average and percentiles:
the value at the place that is the given share of their number, rounded down, in
rising order.
-/

namespace GraphWarden

/-- Counts and collected times. -/
structure Meter where
  reads : Nat := 0
  writes : Nat := 0
  /-- Nodes that writes were not allowed to touch. -/
  excluded : Nat := 0
  /-- Calls to the store that came to an end. -/
  probes : Nat := 0
  probeFailures : Nat := 0
  memoHits : Nat := 0
  memoMisses : Nat := 0
  errors : Nat := 0
  /-- The times that requests took, in milliseconds, the latest last. -/
  times : List Binary64 := []

namespace Meter

/-- Count a read. -/
def countRead (m : Meter) : Meter := { m with reads := m.reads + 1 }

/-- Count a write and the nodes it was not allowed to touch.  The count of nodes is a
word, which begins again at zero. -/
def countWrite (m : Meter) (excluded : Nat) : Meter :=
  { m with writes := m.writes + 1, excluded := (m.excluded + excluded) % (Word.natMax + 1) }

/-- Count calls to the store, some of which failed. -/
def countProbes (m : Meter) (ended failed : Nat) : Meter :=
  { m with probes := m.probes + ended, probeFailures := m.probeFailures + failed }

/-- Count a look-up that found an entry. -/
def countHit (m : Meter) : Meter := { m with memoHits := m.memoHits + 1 }

/-- Count a look-up that found none. -/
def countMiss (m : Meter) : Meter := { m with memoMisses := m.memoMisses + 1 }

/-- Count a failed request. -/
def countError (m : Meter) : Meter := { m with errors := m.errors + 1 }

/-- How many times are collected at most, and how many are dropped beyond that. -/
def timesKept : Nat := 10000

def timesDropped : Nat := 1000

/-- A duration in milliseconds: its whole seconds and the nanoseconds beyond them are
added as numbers of seconds. -/
def milliseconds (nanoseconds : Nat) : Binary64 :=
  let seconds := Binary64.ofNat (nanoseconds / 1000000000)
  let beyond := (Binary64.ofNat (nanoseconds % 1000000000)).dividedBy (Binary64.ofNat 1000000000)
  (seconds.plus beyond).times (Binary64.ofNat 1000)

/-- Collect how long a request took. -/
def collect (m : Meter) (nanoseconds : Nat) : Meter :=
  let times := m.times ++ [milliseconds nanoseconds]
  { m with times := if times.length > timesKept then times.drop timesDropped else times }

/-- The share of one count in another; zero of nothing. -/
def share (part whole : Nat) : Binary64 :=
  (Binary64.ofNat part).dividedBy (Binary64.ofNat whole)

/-- The share of look-ups that found an entry. -/
def hitRate (m : Meter) : Binary64 := share m.memoHits (m.memoHits + m.memoMisses)

/-- The share of calls that failed. -/
def failureRate (m : Meter) : Binary64 := share m.probeFailures m.probes

/-- The average of the collected times, summed up in the order of their arrival. -/
def average (m : Meter) : Binary64 :=
  (m.times.foldl Binary64.plus Binary64.zero).dividedBy (Binary64.ofNat m.times.length)

/-- The largest integer up to a magnitude. -/
def floor (x : Binary64) : Nat :=
  let (num, den) := x.ratio
  num / den

/-- The collected time at a share, given in hundredths, of their number. -/
def percentile (m : Meter) (hundredths : Nat) : Binary64 :=
  let sorted := m.times.mergeSort fun x y => x.rank ≤ y.rank
  let place := floor ((Binary64.ofNat sorted.length).times (Binary64.ofDecimal false hundredths (-2)))
  (sorted[min place (sorted.length - 1)]?).getD Binary64.zero

/-- The lines that describe one count, and its value. -/
def counterText (name help : String) (value : Nat) : String :=
  "# HELP " ++ name ++ " " ++ help ++ "\n# TYPE " ++ name ++ " counter\n"
    ++ name ++ " " ++ toString value ++ "\n"

/-- A line with one percentile in seconds. -/
def quantileText (m : Meter) (label : String) (hundredths : Nat) : String :=
  "authz_latency_seconds\x7bquantile=\"" ++ label ++ "\"\x7d "
    ++ ((m.percentile hundredths).dividedBy (Binary64.ofNat 1000)).plainText ++ "\n"

/-- All counts and percentiles as a text for collectors of metrics. -/
def exportText (m : Meter) : String :=
  "\n".intercalate [
    counterText "authz_reads_total" "Read queries authorized" m.reads,
    counterText "authz_writes_total" "Write gate checks" m.writes,
    counterText "authz_nodes_excluded_total" "Nodes excluded by write gates" m.excluded,
    counterText "authz_probes_total" "Probes issued to the executor" m.probes,
    counterText "authz_probe_failures_total" "Failed or timed out probes" m.probeFailures,
    counterText "authz_cache_hits_total" "Filter cache hits" m.memoHits,
    counterText "authz_cache_misses_total" "Filter cache misses" m.memoMisses,
    "# HELP authz_latency_seconds Request latency percentiles\n"
      ++ "# TYPE authz_latency_seconds summary\n"
      ++ m.quantileText "0.5" 50 ++ m.quantileText "0.95" 95 ++ m.quantileText "0.99" 99,
    counterText "authz_errors_total" "Error count" m.errors]

end Meter

end GraphWarden
