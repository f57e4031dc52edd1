-- An answer as its caller holds it: what is shown of each query, the figures, and how both are read
-- out of the document that was sent.
import QueryReview.Wire.Service

namespace QueryReview.Wire

open QueryReview.Session QueryReview.Service

/-! ## Views -/

/-- What a caller holds of one query. -/
structure ResultView where
  id : String
  label : String
  query : String
  safety : Statement.Verdict
  /-- In seconds. There is none when the query failed. -/
  executionTime : Option Float
  explain : Option Plan.Forest
  analyze : Option Plan.Forest
  referencedTables : List String
  tables : List (String × List Catalog.Column)
  indexes : List (String × List Catalog.IndexPart)
  warnings : List Plan.Warning
  error : Option String
  errorKind : Option String

/-- What a caller holds of the figures. -/
structure SummaryView where
  totalQueries : Nat
  successfulQueries : Nat
  failedQueries : Nat
  /-- In seconds. -/
  totalExecutionTime : Float
  totalCost : Int
  slowestQueryIndex : Option Nat
  hasWarnings : Bool

/-- What a caller holds of an answer. -/
structure AnswerView where
  success : Bool
  message : String
  queries : List ResultView
  summary : Option SummaryView
  completeOutput : Option String

/-- The entries with the value under the name. A name that is there already keeps its place and
takes the new value. -/
def setEntry {α : Type} (name : String) (value : α) : List (String × α) → List (String × α)
  | [] => [(name, value)]
  | (key, old) :: rest =>
    if key = name then (name, value) :: rest else (key, old) :: setEntry name value rest

/-- The entries for the tables, in the order in which they come first. -/
def entriesOf {α : Type} (value : Catalog.TableSchema → α) (schemas : List Catalog.TableSchema) :
    List (String × α) :=
  schemas.foldl (fun entries s => setEntry s.table (value s) entries) []

def ResultView.of (r : QueryResult) : ResultView where
  id := r.request.id
  label := r.request.label
  query := r.request.sql
  safety := r.verdict
  executionTime := r.duration.map (·.seconds)
  explain := r.estimated
  analyze := r.actual
  referencedTables := r.tables
  tables := entriesOf (·.columns) r.schemas
  indexes := entriesOf (·.indexes) r.schemas
  warnings := r.warnings
  error := r.error.map (·.message)
  errorKind := r.error.map (·.kind)

def SummaryView.of (s : Summary) : SummaryView where
  totalQueries := s.totalQueries
  successfulQueries := s.successfulQueries
  failedQueries := s.failedQueries
  totalExecutionTime := s.totalExecutionTime.seconds
  totalCost := s.totalCost
  slowestQueryIndex := s.slowestQueryIndex
  hasWarnings := s.hasWarnings

def AnswerView.of (a : Answer) : AnswerView where
  success := a.success
  message := a.message
  queries := a.results.map .of
  summary := a.summary.map .of
  completeOutput := a.report

/-! ## Reading -/

/-- A whole number of 64 bits, of which one is the sign. -/
def readSigned64 : Json → Option Int
  | .integer n => if -Int.pow 2 63 ≤ n ∧ n ≤ Int.pow 2 63 - 1 then some n else none
  | _ => none

/-- The entries of an object, one for each name. -/
def readEntries {α : Type} (read : Json → Option α) : Json → Option (List (String × α))
  | .object members =>
    members.foldlM (fun entries (name, j) => (read j).map fun a => setEntry name a entries) []
  | _ => none

def readResultView (j : Json) : Option ResultView := do
  let r ← Record.of? 13 j
  let id ← r.required 0 "id" readString
  let label ← r.required 1 "label" readString
  let query ← r.required 2 "query" readString
  let safety ← r.required 3 "safety" readVerdict
  let executionTime ← r.optional 4 "execution_time" readFloat
  let explain ← r.optional 5 "explain" readForest
  let analyze ← r.optional 6 "analyze" readForest
  let referencedTables ← r.required 7 "referenced_tables" (readList readString)
  let tables ← r.required 8 "tables" (readEntries (readList readColumn))
  let indexes ← r.required 9 "indexes" (readEntries (readList readIndexPart))
  let warnings ← r.required 10 "warnings" (readList readWarning)
  let error ← r.optional 11 "error" readString
  let errorKind ← r.optional 12 "error_kind" readString
  pure { id, label, query, safety, executionTime, explain, analyze, referencedTables, tables,
         indexes, warnings, error, errorKind }

def readSummaryView (j : Json) : Option SummaryView := do
  let r ← Record.of? 7 j
  let totalQueries ← r.required 0 "total_queries" (readNat max64)
  let successfulQueries ← r.required 1 "successful_queries" (readNat max64)
  let failedQueries ← r.required 2 "failed_queries" (readNat max64)
  let totalExecutionTime ← r.required 3 "total_execution_time" readFloat
  let totalCost ← r.required 4 "total_cost" readSigned64
  let slowestQueryIndex ← r.optional 5 "slowest_query_index" (readNat max64)
  let hasWarnings ← r.required 6 "has_warnings" readBool
  pure { totalQueries, successfulQueries, failedQueries, totalExecutionTime, totalCost,
         slowestQueryIndex, hasWarnings }

def readAnswerView (j : Json) : Option AnswerView := do
  let r ← Record.of? 5 j
  let success ← r.required 0 "success" readBool
  let message ← r.required 1 "message" readString
  let queries ← r.required 2 "queries" (readList readResultView)
  let summary ← r.optional 3 "summary" readSummaryView
  let completeOutput ← r.optional 4 "complete_output" readString
  pure { success, message, queries, summary, completeOutput }

end QueryReview.Wire
