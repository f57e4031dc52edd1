-- The analysis of one query: the statement is judged, its tables are found, and only then is the
-- database asked.
import QueryReview.Plan.Outline
import QueryReview.Session.Dialogue
import QueryReview.Session.Options
import QueryReview.Session.QueryResult
import QueryReview.Statement.TableNames

namespace QueryReview.Session

open Statement Time

/-- The records of a table: its columns first, then its indexes. -/
def askSchema (table : String) : Dialogue Catalog.TableSchema := do
  let columns ← ask (.columns table)
  let indexes ← ask (.indexes table)
  pure { table, columns, indexes }

def askSchemas : List String → Dialogue (List Catalog.TableSchema)
  | [] => pure []
  | table :: rest => do
    let schema ← askSchema table
    let schemas ← askSchemas rest
    pure (schema :: schemas)

/-- The plan with measurements, if it is wanted. -/
def askActual (sql : String) (includeActual : Bool) : Dialogue (Option Plan.Forest) :=
  if includeActual then do
    let text ← ask (.plan .actual sql)
    pure (some (Plan.Forest.parse .actual text))
  else pure none

/-- All that is asked about one statement: its plans, then the records of each table. -/
def askAll (sql : String) (tables : List String) (includeActual : Bool) : Dialogue Fetched := do
  let text ← ask (.plan .estimated sql)
  let estimated := Plan.Forest.parse .estimated text
  let actual ← askActual sql includeActual
  let schemas ← askSchemas tables
  pure { estimated, actual, schemas, warnings := estimated.warnings }

/-- What comes of a dialogue that has been run for a query. -/
def resultOf (index : Nat) (request : Request) (tables : List String) (run : Run Fetched) :
    QueryResult :=
  match run.ending with
  | .finished fetched => .success index request tables fetched (.ofMillis run.elapsed)
  | .failed f => .failed index request tables (.fetchFailure f.message)
  | .timedOut limit => .failed index request tables (.timeout (.ofMillis limit))
  | .panicked words => .failed index request [] (.taskFailed (panicText words))

/-- A query that has been analysed, and the calls that were made for it. -/
structure Analyzed where
  result : QueryResult
  calls : List Call

/-- What stands in the way of asking the database, or else the tables to ask for. -/
def admit? (policy : Policy) (sql : String) : Except QueryError (List String) :=
  match classify policy sql with
  | .blocked reason => .error (.blockedStatement reason)
  | .safe =>
    match tableNames sql with
    | [] => .error .noTablesFound
    | tables => .ok tables

/-- The analysis of one query. -/
def analyze (options : Options) (collaborator : Collaborator) (includeActual : Bool) (index : Nat)
    (request : Request) : Analyzed :=
  match admit? options.policy request.sql with
  | .error e => { result := .failed index request [] e, calls := [] }
  | .ok tables =>
    let run := (askAll request.sql tables includeActual).run collaborator options.timeLimit? 0
    { result := resultOf index request tables run, calls := run.calls }

end QueryReview.Session
