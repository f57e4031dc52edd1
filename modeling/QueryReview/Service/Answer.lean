-- One request to the service: a list of queries comes in, the session is run, and its results go
-- back together with the report.
import QueryReview.Report.Document
import QueryReview.Session.Run

namespace QueryReview.Service

open Session

/-- What a caller asks for. -/
structure AnalyzeRequest where
  queries : List Request
  /-- The plans with measurements are wanted too. -/
  includeActual : Bool := false
deriving DecidableEq, Repr

/-- What goes back to the caller. -/
structure Answer where
  success : Bool
  message : String
  results : List QueryResult
  summary : Option Summary
  report : Option String

/-- The answer to a request that is refused. Nothing has been analysed. -/
def Answer.rejected (message : String) : Answer where
  success := false
  message := message
  results := []
  summary := none
  report := none

/-- How many of the queries succeeded. -/
def countMessage (s : Summary) : String :=
  "Analyzed " ++ toString s.successfulQueries ++ " of " ++ toString s.totalQueries ++ " queries"

/-- The answer to a session that came to its end. -/
def Answer.reviewed (clock : Report.Clock) (includeActual : Bool) (review : Review) :
    Except Stop Answer :=
  match Report.report clock review.results review.summary includeActual with
  | .error a => .error (.aborted a)
  | .ok text => .ok {
      success := true
      message := countMessage review.summary
      results := review.results
      summary := some review.summary
      report := some text }

/-- A request that has been served: the calls that were made, and the answer. -/
structure Served where
  calls : List Call
  answer : Except Stop Answer

/-- The session for a request, and its report. -/
def serve (options : Options) (collaborator : Collaborator) (clock : Report.Clock)
    (request : AnalyzeRequest) : Served :=
  let ran := run options collaborator request.includeActual request.queries
  { calls := ran.calls
    answer := ran.outcome.bind (Answer.reviewed clock request.includeActual) }

end QueryReview.Service
