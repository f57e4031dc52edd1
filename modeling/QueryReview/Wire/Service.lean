-- Requests to the service and its answers as documents.
import QueryReview.Service.Answer
import QueryReview.Wire.Session

namespace QueryReview.Wire

open QueryReview.Session QueryReview.Service

/-- A query as it is submitted. Only the statement must be there. -/
def readQuery (j : Json) : Option Request := do
  let r ← Record.of? 3 j
  let id ← r.orElse 0 "id" readString ""
  let label ← r.orElse 1 "label" readString ""
  let sql ← r.required 2 "query" readString
  pure { id, label, sql }

def readAnalyzeRequest (j : Json) : Option AnalyzeRequest := do
  let r ← Record.of? 2 j
  let queries ← r.required 0 "queries" (readList readQuery)
  let includeActual ← r.orElse 1 "include_analyze" readBool false
  pure { queries, includeActual }

def ofAnalyzeRequest (r : AnalyzeRequest) : Json :=
  .object [
    ("queries", .array (r.queries.map ofRequest)), ("include_analyze", .bool r.includeActual)]

def ofAnswer (a : Answer) : Json :=
  .object [
    ("success", .bool a.success),
    ("message", .string a.message),
    ("queries", .array (a.results.map ofResult)),
    ("summary", .ofOption ofSummary a.summary),
    ("complete_output", .ofOption .string a.report)]

end QueryReview.Wire
