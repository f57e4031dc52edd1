-- The body of a request to analyse. It is read from left to right, and whichever fault comes
-- first in the text decides: that the text is no JSON, or that a value has the wrong shape.
import QueryReview.Json.Draft
import QueryReview.Service.Answer

namespace QueryReview.Http

open QueryReview.Json (Draft)
open Session Service

/-- Why a body does not decode. -/
inductive DecodeFault
  /-- The text is no JSON. -/
  | malformed
  /-- The text is JSON so far, but not a request. -/
  | mismatched
deriving DecidableEq, Repr

/-- Which of the two faults it is, in words. -/
def DecodeFault.kind : DecodeFault → String
  | .malformed => "Failed to parse the request body as JSON"
  | .mismatched => "Failed to deserialize the JSON body into the target type"

/-- The fault in words. What the decoder says of it stands behind. -/
def DecodeFault.message (f : DecodeFault) : Option String → String
  | none => f.kind
  | some detail => f.kind ++ ": " ++ detail

/-- Why a body is not accepted. -/
inductive BodyFault
  /-- The header does not say that it is JSON. -/
  | notJson
  | tooLong
  /-- It does not decode. The detail is what the decoder says of that. -/
  | undecodable (fault : DecodeFault) (detail : Option String)
deriving DecidableEq, Repr

def BodyFault.message : BodyFault → String
  | .notJson => "Expected request with \x60Content-Type: application/json\x60"
  | .tooLong => "Failed to buffer the request body: length limit exceeded"
  | .undecodable fault detail => fault.message detail

/-- The fault of a value that is not of the kind that is wanted. A text or a number is read to its
end first, and may turn out to be none. -/
def clash : Draft → DecodeFault
  | .broken | .string none => .malformed
  | .number text => if (Decimal.float? text).isSome then .mismatched else .malformed
  | _ => .mismatched

def readText : Draft → Except DecodeFault String
  | .string (some s) => .ok s
  | d => .error (clash d)

def readFlag : Draft → Except DecodeFault Bool
  | .bool b => .ok b
  | d => .error (clash d)

/-- A value that nobody asks for need only be JSON. -/
def skip (d : Draft) : Except DecodeFault Unit := if d.isWhole then .ok () else .error .malformed

/-- A field that may be given once. -/
def setOnce {α : Type} (old : Option α) (read : Draft → Except DecodeFault α) (d : Draft) :
    Except DecodeFault (Option α) :=
  match old with
  | some _ => .error .mismatched
  | none => (read d).map some

/-! ## One query -/

/-- The fields of a query that have been read. -/
structure QueryFields where
  id : Option String := none
  label : Option String := none
  sql : Option String := none

def QueryFields.add (f : QueryFields) : Option String × Draft → Except DecodeFault QueryFields
  | (none, _) => .error .malformed
  | (some "id", d) => (setOnce f.id readText d).map fun id => { f with id }
  | (some "label", d) => (setOnce f.label readText d).map fun label => { f with label }
  | (some "query", d) => (setOnce f.sql readText d).map fun sql => { f with sql }
  | (some _, d) => (skip d).map fun _ => f

/-- The query of the fields. The statement must be there. -/
def QueryFields.close (f : QueryFields) : Except DecodeFault Request :=
  match f.sql with
  | some sql => .ok { id := f.id.getD "", label := f.label.getD "", sql }
  | none => .error .mismatched

/-- A query as an object, or as an array of its fields. -/
def readQuery : Draft → Except DecodeFault Request
  | .object members => do (← members.foldlM QueryFields.add {}).close
  | .array values =>
    match values with
    | [] => .error .mismatched
    | [a] => do
      let _ ← readText a
      .error .mismatched
    | [a, b] => do
      let _ ← readText a
      let _ ← readText b
      .error .mismatched
    | a :: b :: c :: rest => do
      let id ← readText a
      let label ← readText b
      let sql ← readText c
      if rest.isEmpty then pure { id, label, sql } else .error .malformed
  | d => .error (clash d)

def readQueries : Draft → Except DecodeFault (List Request)
  | .array items => items.mapM readQuery
  | d => .error (clash d)

/-! ## The request -/

/-- The fields of a request that have been read. -/
structure RequestFields where
  queries : Option (List Request) := none
  includeActual : Option Bool := none

def RequestFields.add (f : RequestFields) : Option String × Draft → Except DecodeFault RequestFields
  | (none, _) => .error .malformed
  | (some "queries", d) => (setOnce f.queries readQueries d).map fun queries => { f with queries }
  | (some "include_analyze", d) =>
    (setOnce f.includeActual readFlag d).map fun includeActual => { f with includeActual }
  | (some _, d) => (skip d).map fun _ => f

def RequestFields.close (f : RequestFields) : Except DecodeFault AnalyzeRequest :=
  match f.queries with
  | some queries => .ok { queries, includeActual := f.includeActual.getD false }
  | none => .error .mismatched

/-- A request as an object, or as an array of its fields. -/
def readRequest : Draft → Except DecodeFault AnalyzeRequest
  | .object members => do (← members.foldlM RequestFields.add {}).close
  | .array values =>
    match values with
    | [] => .error .mismatched
    | [a] => (readQueries a).map fun queries => { queries }
    | a :: b :: rest => do
      let queries ← readQueries a
      let includeActual ← readFlag b
      if rest.isEmpty then pure { queries, includeActual } else .error .malformed
  | d => .error (clash d)

/-- The request in the first value of a body. What follows that value is not looked at. -/
def readBody (body : List UInt8) : Except DecodeFault AnalyzeRequest :=
  readRequest (Draft.read body)

end QueryReview.Http
