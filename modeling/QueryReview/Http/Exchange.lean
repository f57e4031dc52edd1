-- Requests over HTTP and the responses to them. There are two routes: one takes queries to be
-- analysed, the other one tells that the service is alive.
import QueryReview.Http.Body
import QueryReview.Http.MediaType
import QueryReview.Text.Digit
import QueryReview.Wire.Service

namespace QueryReview.Http

open Session Service Text

structure Message where
  method : String
  /-- The path and the query string, or a full address. -/
  target : String
  headers : List (String × String)
  body : List UInt8

inductive Content
  | none
  | text (s : String)
  | json (j : Json)

structure Response where
  status : Nat
  contentType : Option String := Option.none
  /-- The methods that the path can be asked with. -/
  allow : Option String := Option.none
  content : Content := .none

/-- What the service needs to know to answer. -/
structure Service where
  options : Options
  collaborator : Collaborator
  clock : Report.Clock
  /-- The longest body that is accepted. -/
  maxBodyBytes : Nat
  /-- What the decoder says of a body that does not decode. It is passed on behind the kind of the
  fault. A decoder without words of its own leaves the kind alone. -/
  explain : List UInt8 → Option String := fun _ => none

/-- A message that has been answered: the calls that were made, and the response. -/
structure Exchange where
  calls : List Call := []
  response : Response

/-! ## Headers -/

/-- A character that a header may show as text. -/
def isHeaderText (c : Char) : Bool := c == '\t' || (0x20 ≤ c.toNat && c.toNat < 0x7f)

/-- The text of the first header of the name, which is given in small letters. -/
def Message.header? (m : Message) (name : String) : Option (List Char) :=
  (m.headers.find? fun (n, _) => n.toList.map Char.toLower == name.toList).bind fun (_, value) =>
    if value.toList.all isHeaderText then some value.toList else Option.none

/-- A number of 64 bits, perhaps with a plus sign in front. -/
def readLength? (cs : List Char) : Option Nat :=
  let digits :=
    match cs with
    | '+' :: rest => rest
    | _ => cs
  (natural? digits).filter (· < Nat.pow 2 64)

/-- The length that the message says its body has. -/
def Message.contentLength? (m : Message) : Option Nat :=
  (m.header? "content-length").bind readLength?

/-- The message says that its body is JSON. -/
def Message.saysJson (m : Message) : Bool :=
  ((m.header? "content-type").bind MediaType.read?).any MediaType.isJson

/-! ## Routes -/

inductive Route
  | analyze
  | health
deriving DecidableEq, Repr

/-- The path of a target: what comes behind the host of a full address, without the query. -/
def pathOf (target : List Char) : List Char :=
  let isEnd (c : Char) : Bool := c == '?' || c == '#'
  let path :=
    match target with
    | '/' :: _ => target
    | _ =>
      match cut? "://".toList target with
      | some (_, rest) => rest.dropWhile fun c => c != '/' && !isEnd c
      | Option.none => target
  path.takeWhile fun c => !isEnd c

def Route.ofPath? (path : List Char) : Option Route :=
  if path = "/api/analyze".toList then some .analyze
  else if path = "/health".toList then some .health
  else Option.none

/-- The methods of a route. -/
def Route.methods : Route → List String
  | .analyze => ["POST"]
  | .health => ["GET", "HEAD"]

def Route.allow (r : Route) : String := String.intercalate "," r.methods

/-! ## Responses -/

def jsonType : String := "application/json"

def Response.ofJson (status : Nat) (j : Json) : Response :=
  { status, contentType := some jsonType, content := .json j }

/-- The response to a request that is turned down, with the reason. -/
def Response.rejected (status : Nat) (message : String) : Response :=
  .ofJson status (Wire.ofAnswer (Answer.rejected message))

/-- A body that its own header declares too long. -/
def Response.payloadTooLarge : Response :=
  { status := 413
    contentType := some "text/plain; charset=utf-8"
    content := .text "length limit exceeded" }

def version : String := "0.1.0"

def Response.alive : Response :=
  .ofJson 200 (.object [("status", .string "ok"), ("version", .string version)])

/-- The response when a body is not accepted. -/
def Response.badBody (f : BodyFault) : Response :=
  .rejected 400 ("invalid request body: " ++ f.message)

/-- The response when a session has no review. What broke is not told. -/
def Response.stopped : Stop → Response
  | .refused e => .rejected 400 e.message
  | .aborted _ => .rejected 500 "internal error"

/-! ## Answering -/

/-- The longest body that is ever read. -/
def bufferLimit : Nat := 2 * 1024 * 1024

/-- The body goes past its limits: the limit of the service, the length that the message declares,
and the size of the buffer. -/
def bodyTooLong (service : Service) (m : Message) : Bool :=
  service.maxBodyBytes < m.body.length || bufferLimit < m.body.length
    || m.contentLength?.any (· < m.body.length)

/-- The request in the body of a message. -/
def readMessage (service : Service) (m : Message) : Except BodyFault AnalyzeRequest :=
  if !m.saysJson then .error .notJson
  else if bodyTooLong service m then .error .tooLong
  else (readBody m.body).mapError fun f => .undecodable f (service.explain m.body)

/-- The answer to queries. -/
def answerQueries (service : Service) (m : Message) : Exchange :=
  match readMessage service m with
  | .error f => { response := .badBody f }
  | .ok request =>
    let served := serve service.options service.collaborator service.clock request
    { calls := served.calls
      response :=
        match served.answer with
        | .ok answer => .ofJson 200 (Wire.ofAnswer answer)
        | .error stop => .stopped stop }

/-- The message declares a body that is too long. -/
def declaresTooMuch (service : Service) (m : Message) : Bool :=
  m.contentLength?.any (service.maxBodyBytes < ·)

/-- The answer of a route to a method that it has. -/
def Route.answer (r : Route) (service : Service) (m : Message) : Exchange :=
  if declaresTooMuch service m then { response := .payloadTooLarge }
  else
    match r with
    | .analyze => answerQueries service m
    | .health => { response := .alive }

/-- The response to a method that a route does not have. -/
def Route.refuse (r : Route) (service : Service) (m : Message) : Response :=
  let response : Response :=
    if declaresTooMuch service m then .payloadTooLarge else { status := 405 }
  { response with allow := some r.allow }

/-- The response without its content, which a question for the head alone does not want. -/
def Exchange.headOnly (e : Exchange) : Exchange :=
  { e with response := { e.response with content := .none } }

/-- The answer to a message. Only a route that has the method HEAD leaves the content out. -/
def answer (service : Service) (m : Message) : Exchange :=
  match Route.ofPath? (pathOf m.target.toList) with
  | Option.none =>
    { response := if declaresTooMuch service m then .payloadTooLarge else { status := 404 } }
  | some route =>
    if route.methods.contains m.method then
      let exchange := route.answer service m
      if m.method = "HEAD" then exchange.headOnly else exchange
    else { response := route.refuse service m }

end QueryReview.Http
