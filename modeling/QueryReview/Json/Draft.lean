-- A JSON text as far as it is well formed. Where the text stops being JSON, the draft is broken
-- at that place and keeps all that came before it, so that a reader who wants only part of the
-- document, or a document of another shape, can tell which fault comes first.
import QueryReview.Json.Value
import QueryReview.Json.Token
import QueryReview.Decimal.Numeral

namespace QueryReview.Json

inductive Draft
  | null
  | bool (b : Bool)
  | number (text : List Char)
  /-- A string, with no text when what it holds is not Unicode text. -/
  | string (text : Option String)
  | array (items : List Draft)
  /-- The members with their names. A name is absent when it is not Unicode text, or when the text
  breaks where a name should be. -/
  | object (members : List (Option String × Draft))
  /-- Here the text breaks. -/
  | broken
deriving Repr, Inhabited

namespace Draft

/-- A container that is still open, with what it holds so far in reverse. -/
inductive Frame
  | array (done : List Draft)
  | object (done : List (Option String × Draft)) (name : Option String)

/-- The container with one more value. In an object the value goes under the name read last. -/
def Frame.add : Frame → Draft → Frame
  | .array done, d => .array (d :: done)
  | .object done name, d => .object ((name, d) :: done) none

def Frame.close : Frame → Draft
  | .array done => .array done.reverse
  | .object done _ => .object done.reverse

/-- All open containers closed around the innermost value. -/
def closeAll (open_ : List Frame) (d : Draft) : Draft :=
  open_.foldl (fun inner frame => (frame.add inner).close) d

/-- What may come next. After an opening bracket its closing one may come too. -/
inductive Want
  | value (orClose : Bool)
  | name (orClose : Bool)
  | colon
  | separator

/-- How far the first value has been read. -/
inductive Progress
  | within (frames : List Frame) (want : Want)
  | complete (d : Draft)

/-- The text breaks inside these containers. -/
def breakOff (frames : List Frame) : Progress := .complete (closeAll frames .broken)

/-- A value that stands whole in these containers. -/
def deliver : List Frame → Draft → Progress
  | [], d => .complete d
  | frame :: more, d => .within (frame.add d :: more) .separator

/-- The innermost container ends. -/
def close : List Frame → Progress
  | [] => breakOff []
  | frame :: more => deliver more frame.close

/-- A token where a value may start. -/
def stepValue (frames : List Frame) (orClose : Bool) (token : Token) : Progress :=
  match token with
  | .null => deliver frames .null
  | .bool b => deliver frames (.bool b)
  | .number text => deliver frames (.number text)
  | .string text => deliver frames (.string text)
  | .openArray => .within (.array [] :: frames) (.value true)
  | .openObject => .within (.object [] none :: frames) (.name true)
  | .closeArray => if orClose then close frames else breakOff frames
  | _ => breakOff frames

/-- One token. -/
def step (frames : List Frame) (want : Want) (token : Token) : Progress :=
  match want with
  | .value orClose => stepValue frames orClose token
  | .name orClose =>
    match token, frames with
    | .string name, .object done _ :: more => .within (.object done name :: more) .colon
    | .closeObject, _ => if orClose then close frames else breakOff frames
    | _, _ => breakOff frames
  | .colon =>
    match token with
    | .colon => .within frames (.value false)
    | _ => breakOff frames
  | .separator =>
    match token, frames with
    | .comma, .array _ :: _ => .within frames (.value false)
    | .comma, .object _ _ :: _ => .within frames (.name false)
    | .closeArray, .array _ :: _ => close frames
    | .closeObject, .object _ _ :: _ => close frames
    | _, _ => breakOff frames

/-- The first value of the tokens, and the tokens after it. -/
def build (frames : List Frame) (want : Want) : List Token → Draft × List Token
  | [] => (closeAll frames .broken, [])
  | token :: rest =>
    match step frames want token with
    | .within frames want => build frames want rest
    | .complete d => (d, rest)

/-- The first value of a text. Whatever follows it is not looked at. -/
def read (bytes : List UInt8) : Draft := (build [] (.value false) (tokens bytes)).1

mutual

/-- The draft breaks nowhere. Strings may hold anything, as for a value that nobody reads. -/
def isWhole : Draft → Bool
  | .broken => false
  | .array items => allWhole items
  | .object members => membersWhole members
  | _ => true

def allWhole : List Draft → Bool
  | [] => true
  | d :: rest => isWhole d && allWhole rest

def membersWhole : List (Option String × Draft) → Bool
  | [] => true
  | (_, d) :: rest => isWhole d && membersWhole rest

end

/-- The number as a document: without point and exponent it is whole, except for a zero with a
sign. -/
def number? (text : List Char) : Option Json :=
  let (sign, digits) := Decimal.takeSign text
  match Text.natural? digits with
  | some n =>
    if sign.isEmpty then some (.integer n)
    else if n = 0 then some (.decimal (-0.0))
    else some (.integer (-n))
  | none => (Decimal.float? text).map .decimal

mutual

/-- The document, if the draft breaks nowhere, holds text in all its strings, and has no number
that is too large. Of members with one name the last counts. -/
def toJson? : Draft → Option Json
  | .null => some .null
  | .bool b => some (.bool b)
  | .number text => number? text
  | .string text => text.map .string
  | .array items => (toItems? items).map .array
  | .object members => (toMembers? [] members).map .object
  | .broken => none

def toItems? : List Draft → Option (List Json)
  | [] => some []
  | d :: rest => do
    let item ← toJson? d
    let items ← toItems? rest
    pure (item :: items)

def toMembers? (done : List (String × Json)) : List (Option String × Draft) →
    Option (List (String × Json))
  | [] => some done
  | (name, d) :: rest => do
    let name ← name
    let value ← toJson? d
    toMembers? (setMember name value done) rest

end

end Draft

/-- The document that a text holds and nothing else. -/
def parse? (text : String) : Option Json :=
  match Draft.build [] (.value false) (tokens text.toUTF8.data.toList) with
  | (draft, []) => draft.toJson?
  | _ => none

end QueryReview.Json
