-- How a session is run.
import QueryReview.Statement.Verdict
import QueryReview.Time.Duration

namespace QueryReview.Session

inductive ExecutionMode
  /-- One query after the other. -/
  | sequential
  /-- Several queries at once. -/
  | parallel
deriving DecidableEq, Repr

structure Options where
  mode : ExecutionMode := .sequential
  /-- The most queries at once in parallel mode. -/
  maxParallelism : Nat := 4
  /-- The time that one query may take, in milliseconds, where 0 is no limit. -/
  queryTimeoutMs : Nat := 0
  rejectMultipleStatements : Bool := false
  /-- The longest list of requests, where 0 is no limit. -/
  maxQueries : Nat := 50
deriving DecidableEq, Repr

namespace Options

/-- At least one query runs at a time. -/
def withMaxParallelism (o : Options) (n : Nat) : Options := { o with maxParallelism := max n 1 }

/-- The time that one query may take, in milliseconds. -/
def timeLimit? (o : Options) : Option Nat :=
  if 0 < o.queryTimeoutMs then some o.queryTimeoutMs else none

def policy (o : Options) : Statement.Policy :=
  { rejectMultipleStatements := o.rejectMultipleStatements }

/-- The number of queries that may run at once. -/
def permits (o : Options) : Nat := max o.maxParallelism 1

end Options

end QueryReview.Session
