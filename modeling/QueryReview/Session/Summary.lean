-- The figures of a whole session. Only queries that succeeded bring time, cost and warnings to
-- it, but all are counted.
import QueryReview.Decimal.Binary
import QueryReview.Failure
import QueryReview.Session.QueryResult

namespace QueryReview.Session

open Time

structure Summary where
  totalQueries : Nat
  successfulQueries : Nat
  failedQueries : Nat
  totalExecutionTime : Duration
  /-- The sum of the costs of the first roots, cut to a whole number. -/
  totalCost : Int
  /-- The index of the slowest query. Of equally slow ones it is the first. -/
  slowestQueryIndex : Option Nat
  /-- Some estimated plan reads a whole table. -/
  hasWarnings : Bool
deriving DecidableEq, Repr

/-- The slower of the slowest query so far and a new one, which must be strictly slower. -/
def slower (slowest : Option (Nat × Duration)) (index : Nat) (duration : Duration) :
    Option (Nat × Duration) :=
  match slowest with
  | none => some (index, duration)
  | some (i, longest) => if duration.longer longest then some (index, duration) else some (i, longest)

/-- The figures while the results are gone through. -/
structure Tally where
  successes : Nat := 0
  cost : Float := 0.0
  hasWarnings : Bool := false
  time : Duration := .zero
  slowest : Option (Nat × Duration) := none

/-- One more success. The time overflows when it is too long. -/
def Tally.add (t : Tally) (r : QueryResult) : Except Abort Tally :=
  let counted := { t with
    successes := t.successes + 1
    cost := t.cost + r.rootCost.getD 0.0
    hasWarnings := t.hasWarnings || r.hasTableScans }
  match r.duration with
  | none => .ok counted
  | some duration =>
    match t.time.add? duration with
    | none => .error .durationOverflow
    | some time => .ok { counted with time, slowest := slower t.slowest r.index duration }

/-- The figures of the results. -/
def Summary.ofResults (results : List QueryResult) : Except Abort Summary := do
  let t ← (results.filter QueryResult.isSuccess).foldlM Tally.add {}
  pure {
    totalQueries := results.length
    successfulQueries := t.successes
    failedQueries := results.length - t.successes
    totalExecutionTime := t.time
    totalCost := Decimal.truncateToSigned64 t.cost
    slowestQueryIndex := t.slowest.map Prod.fst
    hasWarnings := t.hasWarnings }

end QueryReview.Session
