-- Requests, options, results and summaries as documents.
import QueryReview.Session.Options
import QueryReview.Session.Summary
import QueryReview.Wire.Catalog
import QueryReview.Wire.Plan
import QueryReview.Wire.Statement

namespace QueryReview.Wire

open QueryReview.Session

/-! ## Requests and options -/

def ofRequest (r : Request) : Json :=
  .object [("id", .string r.id), ("label", .string r.label), ("query", .string r.sql)]

/-- A request with all its fields. -/
def readRequest (j : Json) : Option Request := do
  let r ← Record.of? 3 j
  let id ← r.required 0 "id" readString
  let label ← r.required 1 "label" readString
  let sql ← r.required 2 "query" readString
  pure { id, label, sql }

def executionModeName : ExecutionMode → String
  | .sequential => "sequential"
  | .parallel => "parallel"

def readExecutionMode : Json → Option ExecutionMode :=
  readName [("sequential", .sequential), ("parallel", .parallel)]

def ofOptions (o : Options) : Json :=
  .object [
    ("mode", .string (executionModeName o.mode)),
    ("max_parallelism", .ofNat o.maxParallelism),
    ("query_timeout_ms", .ofNat o.queryTimeoutMs),
    ("reject_multiple_statements", .bool o.rejectMultipleStatements),
    ("max_queries", .ofNat o.maxQueries)]

/-- Options, where each field that is missing has its standing value. -/
def readOptions (j : Json) : Option Options := do
  let r ← Record.of? 5 j
  let standing : Options := {}
  let mode ← r.orElse 0 "mode" readExecutionMode standing.mode
  let maxParallelism ← r.orElse 1 "max_parallelism" (readNat max64) standing.maxParallelism
  let queryTimeoutMs ← r.orElse 2 "query_timeout_ms" (readNat max64) standing.queryTimeoutMs
  let rejectMultipleStatements ←
    r.orElse 3 "reject_multiple_statements" readBool standing.rejectMultipleStatements
  let maxQueries ← r.orElse 4 "max_queries" (readNat max64) standing.maxQueries
  pure { mode, maxParallelism, queryTimeoutMs, rejectMultipleStatements, maxQueries }

/-! ## Results -/

/-- The members of an object, one for each table. A table that comes again keeps its place and
takes the later value. -/
def byTable (value : Catalog.TableSchema → Json) (schemas : List Catalog.TableSchema) :
    List (String × Json) :=
  schemas.foldl (fun members s => Json.setMember s.table (value s) members) []

/-- What a caller sees of one query. -/
def resultMembers (r : QueryResult) : List (String × Json) :=
  [ ("id", .string r.request.id),
    ("label", .string r.request.label),
    ("query", .string r.request.sql),
    ("safety", ofVerdict r.verdict),
    ("execution_time", .ofOption (fun d => .ofFloat d.seconds) r.duration),
    ("explain", .ofOption ofForest r.estimated),
    ("analyze", .ofOption ofForest r.actual),
    ("referenced_tables", .ofStrings r.tables),
    ("tables", .object (byTable (fun s => ofColumns s.columns) r.schemas)),
    ("indexes", .object (byTable (fun s => ofIndexes s.indexes) r.schemas)),
    ("warnings", .array (r.warnings.map ofWarning)),
    ("error", .ofOption (fun e => .string e.message) r.error),
    ("error_kind", .ofOption (fun e => .string e.kind) r.error) ]

def ofResult (r : QueryResult) : Json := .object (resultMembers r)

def ofSummary (s : Summary) : Json :=
  .object [
    ("total_queries", .ofNat s.totalQueries),
    ("successful_queries", .ofNat s.successfulQueries),
    ("failed_queries", .ofNat s.failedQueries),
    ("total_execution_time", .ofFloat s.totalExecutionTime.seconds),
    ("total_cost", .integer s.totalCost),
    ("slowest_query_index", .ofOption .ofNat s.slowestQueryIndex),
    ("has_warnings", .bool s.hasWarnings)]

end QueryReview.Wire
