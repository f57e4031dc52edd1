-- What can go wrong outside the analysis itself: in the database, in its catalog, or with the
-- configuration.

namespace QueryReview

inductive Failure
  | connection (text : String)
  | query (text : String)
  | schema (text : String)
  | configuration (text : String)
  | io (text : String)
deriving DecidableEq, Repr

def Failure.message : Failure → String
  | .connection text => "Connection error: " ++ text
  | .query text => "Query error: " ++ text
  | .schema text => "Schema error: " ++ text
  | .configuration text => "Configuration error: " ++ text
  | .io text => "IO error: " ++ text

/-- A defect that ends the whole answer, and not one query alone. -/
inductive Abort
  /-- The durations of a session add up to more than a duration can hold. -/
  | durationOverflow
  /-- More queries at once are allowed than permits can be counted. -/
  | tooManyPermits
  /-- A column of a table of text is wider than a column may be. -/
  | columnTooWide
  /-- The place of a query, counted from 1, does not fit into 64 bits. -/
  | placeOverflow
  /-- The clock failed. -/
  | clock (text : String)
deriving DecidableEq, Repr

/-- The most permits that can be counted. -/
def maxPermits : Nat := Nat.pow 2 61 - 1

def Abort.message : Abort → String
  | .durationOverflow => "overflow when adding durations"
  | .tooManyPermits =>
    "a semaphore may not have more than MAX_PERMITS permits (" ++ toString maxPermits ++ ")"
  | .columnTooWide => "Formatting argument out of range"
  | .placeOverflow => "attempt to add with overflow"
  | .clock text => text

end QueryReview
