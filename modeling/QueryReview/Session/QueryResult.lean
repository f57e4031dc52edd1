-- What a session has to say about one query.
import QueryReview.Catalog
import QueryReview.Plan.Warning
import QueryReview.Session.Request
import QueryReview.Statement.Verdict
import QueryReview.Text.Quoted
import QueryReview.Time.Duration

namespace QueryReview.Session

open Statement Time

/-- Why one query could not be analysed. The session goes on without it. -/
inductive QueryError
  | blockedStatement (reason : BlockReason)
  | noTablesFound
  | fetchFailure (text : String)
  | timeout (limit : Duration)
  | taskFailed (text : String)
deriving DecidableEq, Repr

namespace QueryError

def message : QueryError → String
  | blockedStatement reason => reason.message
  | noTablesFound => "no tables found"
  | fetchFailure text => text
  | timeout limit => "analysis timed out after " ++ toString limit.millis ++ "ms"
  | taskFailed text => "analysis task failed: " ++ text

/-- The name of the error for programs. -/
def kind : QueryError → String
  | blockedStatement _ => "blocked_statement"
  | noTablesFound => "no_tables_found"
  | fetchFailure _ => "fetch_failure"
  | timeout _ => "timeout"
  | taskFailed _ => "task_failed"

end QueryError

/-- What is said of a task that broke down with the given words. Its number is left out. -/
def panicText : Option String → String
  | none => "task # panicked"
  | some words => "task # panicked with message " ++ String.ofList (Text.quoted words.toList)

/-- The plans and the catalog records of a query, and the warnings about its estimated plan. -/
structure Fetched where
  estimated : Plan.Forest
  actual : Option Plan.Forest
  schemas : List Catalog.TableSchema
  warnings : List Plan.Warning

structure QueryResult where
  /-- The place of the query in the list of requests, from 0. -/
  index : Nat
  request : Request
  verdict : Verdict
  /-- The tables that the statement names. -/
  tables : List String
  estimated : Option Plan.Forest
  actual : Option Plan.Forest
  /-- The records of the tables, in the order of `tables`. -/
  schemas : List Catalog.TableSchema
  warnings : List Plan.Warning
  /-- The time spent on fetching, if the query succeeded. -/
  duration : Option Duration
  error : Option QueryError

namespace QueryResult

def success (index : Nat) (request : Request) (tables : List String) (fetched : Fetched)
    (duration : Duration) : QueryResult where
  index := index
  request := request
  verdict := .safe
  tables := tables
  estimated := some fetched.estimated
  actual := fetched.actual
  schemas := fetched.schemas
  warnings := fetched.warnings
  duration := some duration
  error := none

/-- The verdict that goes with an error. -/
def verdictOf : QueryError → Verdict
  | .blockedStatement reason => .blocked reason
  | _ => .safe

/-- A query that failed has nothing to show but its tables. -/
def failed (index : Nat) (request : Request) (tables : List String) (error : QueryError) :
    QueryResult where
  index := index
  request := request
  verdict := verdictOf error
  tables := tables
  estimated := none
  actual := none
  schemas := []
  warnings := []
  duration := none
  error := some error

def isSuccess (r : QueryResult) : Bool := r.error.isNone

def isFailed (r : QueryResult) : Bool := r.error.isSome

/-- The cost of the first root of the estimated plan. -/
def rootCost (r : QueryResult) : Option Float := r.estimated.bind Plan.Forest.rootCost

/-- The estimated plan reads a whole table. -/
def hasTableScans (r : QueryResult) : Bool := r.estimated.any Plan.Forest.hasTableScans

end QueryResult

end QueryReview.Session
