-- The queries that a caller submits, and the rules that a list of them must keep.
import QueryReview.Failure
import QueryReview.Text.Blank

namespace QueryReview.Session

/-- One statement to be analysed. -/
structure Request where
  /-- The caller's name for it, unlike all others of the session. -/
  id : String
  /-- What the report calls it. -/
  label : String
  /-- The statement exactly as submitted. -/
  sql : String
deriving DecidableEq, Repr

/-- The label of a request that has none, by its place in the list. -/
def defaultLabel (index : Nat) : String := "Query " ++ toString (index + 1)

/-- The number of a place in the list, counted from 1. It must fit into 64 bits. -/
def placeNumber (index : Nat) : Except Abort Nat :=
  if index < Nat.pow 2 64 - 1 then .ok (index + 1) else .error .placeOverflow

/-- The label for a place that need not be one of a list. -/
def defaultLabelAt (index : Nat) : Except Abort String :=
  (placeNumber index).map fun _ => defaultLabel index

def isBlankText (s : String) : Bool := Text.allBlank s.toList

/-- The request, with a label even if none was given. -/
def Request.withDefaultLabel (r : Request) (index : Nat) : Request :=
  if isBlankText r.label then { r with label := defaultLabel index } else r

/-- The requests, all with labels. -/
def labelled (requests : List Request) : List Request :=
  requests.mapIdx fun index r => r.withDefaultLabel index

/-- Why a list of requests is refused. -/
inductive RequestError
  | emptyRequest
  | tooManyQueries (count most : Nat)
  | duplicateQueryId (id : String)
  | blankQueryId (index : Nat)
deriving DecidableEq, Repr

def RequestError.message : RequestError → String
  | .emptyRequest => "no queries submitted"
  | .tooManyQueries count most =>
    toString count ++ " queries submitted, at most " ++ toString most ++ " allowed"
  | .duplicateQueryId id => "duplicate query id \x27" ++ id ++ "\x27"
  | .blankQueryId index => "query " ++ toString (index + 1) ++ " has a blank id"

/-- The names from the given place on are not blank, differ from each other, and from those seen
before. -/
def checkIds (index : Nat) (seen : List String) : List Request → Except RequestError Unit
  | [] => .ok ()
  | r :: rest =>
    if isBlankText r.id then .error (.blankQueryId index)
    else if seen.contains r.id then .error (.duplicateQueryId r.id)
    else checkIds (index + 1) (r.id :: seen) rest

/-- The rules for a list of requests, where `most` is the longest list allowed, and 0 allows
any. -/
def validate (most : Nat) (requests : List Request) : Except RequestError Unit :=
  if requests.isEmpty then .error .emptyRequest
  else if 0 < most ∧ most < requests.length then
    .error (.tooManyQueries requests.length most)
  else checkIds 0 [] requests

end QueryReview.Session
