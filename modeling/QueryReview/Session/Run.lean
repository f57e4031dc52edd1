-- A session: a list of requests is checked, each query is analysed, and the results are summed
-- up. Queries have nothing to do with each other, so what comes of one does not hang on how many
-- run at once.
import QueryReview.Session.Analysis
import QueryReview.Session.Summary

namespace QueryReview.Session

/-- A session that came to its end. -/
structure Review where
  results : List QueryResult
  summary : Summary

/-- Why a session has no review. -/
inductive Stop
  /-- The list of requests is refused. -/
  | refused (e : RequestError)
  | aborted (a : Abort)
deriving DecidableEq, Repr

/-- The queries of a session, analysed in the order of the requests. -/
def analyzeAll (options : Options) (collaborator : Collaborator) (includeActual : Bool)
    (requests : List Request) : List Analyzed :=
  (labelled requests).mapIdx (analyze options collaborator includeActual)

/-- The permits for running in parallel can be counted. -/
def permitsFit (options : Options) : Bool :=
  options.mode == .sequential || options.permits ≤ maxPermits

/-- A session that has been run: the calls that were made, those for an earlier request first, and
what came of it. -/
structure Ran where
  calls : List Call
  outcome : Except Stop Review

def run (options : Options) (collaborator : Collaborator) (includeActual : Bool)
    (requests : List Request) : Ran :=
  match validate options.maxQueries requests with
  | .error e => { calls := [], outcome := .error (.refused e) }
  | .ok () =>
    if permitsFit options then
      let analyzed := analyzeAll options collaborator includeActual requests
      let results := analyzed.map (·.result)
      { calls := analyzed.flatMap (·.calls)
        outcome :=
          match Summary.ofResults results with
          | .ok summary => .ok { results, summary }
          | .error a => .error (.aborted a) }
    else { calls := [], outcome := .error (.aborted .tooManyPermits) }

end QueryReview.Session
