-- The answers to queries that are posted. A body that does not decode and a list that is refused
-- are turned down before anything is asked, a breakdown outside the queries is told without what
-- broke, and every other list is answered in full: one view for each query, in order, with figures
-- that say how many of the views tell of an error.
import QueryReview.Http.Exchange
import QueryReview.Proofs.Session.Outcome

namespace QueryReview.Http

open Session
open QueryReview.Service (Answer)

/-! ## What a response says -/

/-- The value under a name of an object. -/
def field? (name : String) : Json → Option Json
  | .object members => Json.member? name members
  | _ => none

/-- The response turns the request down, with the message, and has nothing else to tell. -/
structure Rejects (status : Nat) (message : String) (r : Response) : Prop where
  status : r.status = status
  content : ∃ j, r.content = .json j ∧
    field? "success" j = some (.bool false) ∧
    field? "message" j = some (.string message) ∧
    field? "queries" j = some (.array []) ∧
    field? "summary" j = some .null ∧
    field? "complete_output" j = some .null

/-- The view of a query tells of no error. -/
def isClean (view : Json) : Bool :=
  match field? "error" view with
  | some .null => true
  | _ => false

/-- The view of a query tells of an error, in words. -/
def tellsError (view : Json) : Bool :=
  match field? "error" view with
  | some (.string _) => true
  | _ => false

/-- The views are those of the queries, one for each, in the order in which they were submitted. -/
structure Views (queries : List Request) (views : List Json) : Prop where
  length : views.length = queries.length
  each : ∀ (index : Nat) (query : Request), queries[index]? = some query → ∃ view : Json,
    views[index]? = some view ∧
    field? "id" view = some (.string query.id) ∧
    field? "query" view = some (.string query.sql)
  /-- Each of them tells of an error or does not. -/
  told : ∀ view ∈ views, isClean view = !tellsError view

/-- The summary counts the views, and those of them that tell of an error. -/
structure Counts (views : List Json) (summary : Json) : Prop where
  total : field? "total_queries" summary = some (.ofNat views.length)
  successful : field? "successful_queries" summary = some (.ofNat (views.countP isClean))
  failed : field? "failed_queries" summary = some (.ofNat (views.countP tellsError))

/-- The response answers all the queries. -/
structure Reviews (queries : List Request) (r : Response) : Prop where
  status : r.status = 200
  content : ∃ j views summary report, r.content = .json j ∧
    field? "success" j = some (.bool true) ∧
    field? "queries" j = some (.array views) ∧ Views queries views ∧
    field? "message" j = some (.string ("Analyzed " ++ toString (views.countP isClean) ++ " of "
      ++ toString views.length ++ " queries")) ∧
    field? "summary" j = some summary ∧ Counts views summary ∧
    field? "complete_output" j = some (.string report)

/-! ## From a session to the response -/

/-- What breaks down outside the queries, in the session or in its report. -/
def defect? (clock : Report.Clock) (includeActual : Bool) : Except Stop Review → Option Abort
  | .error (.aborted a) => some a
  | .error (.refused _) => none
  | .ok review =>
    match Report.report clock review.results review.summary includeActual with
    | .error a => some a
    | .ok _ => none

theorem rejects_rejected (status : Nat) (message : String) :
    Rejects status message (.rejected status message) where
  status := rfl
  content := ⟨_, rfl, by
    simp [Wire.ofAnswer, Answer.rejected, field?, Json.member?, Json.ofOption]⟩

/-- The response to an accepted list: in full, or not at all when something breaks down outside
the queries. -/
structure Answered (clock : Report.Clock) (includeActual : Bool) (queries : List Request)
    (o : Except Stop Review) (r : Response) : Prop where
  whole : defect? clock includeActual o = none → Reviews queries r
  broken : ∀ a, defect? clock includeActual o = some a → Rejects 500 "internal error" r

variable {service : Service} {m : Message}

end QueryReview.Http
