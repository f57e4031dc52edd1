-- Media types, as far as they tell whether a body is JSON.
import QueryReview.Text.Find

namespace QueryReview.Http

open Text

/-- A character of the names in a media type. -/
def isToken (c : Char) : Bool :=
  c.isAlphanum || "!#$%&\x27*+-.^_\x60|~".toList.contains c

/-- A character that may stand between the quotes of a parameter. -/
def isQuotable (c : Char) : Bool := 0x20 ≤ c.toNat && c.toNat != 0x7f

/-- Where the reading of the parameters stands. Each state but the last two knows whether
something has been read already. -/
inductive ParameterState
  /-- In front of a name, where blanks may stand. -/
  | start
  | name
  /-- Behind the equals sign. -/
  | value (empty : Bool)
  /-- Inside quotes. -/
  | quoted (empty : Bool)
  /-- Behind the closing quote. -/
  | closed

/-- The state after one more character, if that may stand there. -/
def ParameterState.next? (s : ParameterState) (c : Char) : Option ParameterState :=
  match s with
  | .start => if c = ' ' then some .start else if isToken c then some .name else none
  | .name => if c = '=' then some (.value true) else if isToken c then some .name else none
  | .value empty =>
    if empty ∧ c = '\x22' then some (.quoted true)
    else if isToken c then some (.value false)
    else if ¬empty ∧ c = ';' then some .start
    else none
  | .quoted empty =>
    if ¬empty ∧ c = '\x22' then some .closed
    else if isQuotable c then some (.quoted false)
    else none
  | .closed => if c = ';' then some .start else if c = ' ' then some .closed else none

/-- The parameters may end here. -/
def ParameterState.mayEnd : ParameterState → Bool
  | .start | .value _ | .closed => true
  | .name | .quoted _ => false

/-- The text is a list of parameters. -/
def parametersFit (cs : List Char) : Bool :=
  match cs.foldlM ParameterState.next? .start with
  | some s => s.mayEnd
  | none => false

/-- A media type without its parameters, in small letters. -/
structure MediaType where
  main : List Char
  /-- The subtype up to its last plus sign. -/
  sub : List Char
  /-- What follows the last plus sign of the subtype. -/
  suffix : Option (List Char)
deriving DecidableEq, Repr

/-- The subtype and its suffix. A plus sign in first place starts no suffix. -/
def splitSuffix (cs : List Char) : List Char × Option (List Char) :=
  let suffix := (cs.reverse.takeWhile (· != '+')).reverse
  if suffix.length + 1 < cs.length then
    (cs.take (cs.length - suffix.length - 1), some suffix)
  else (cs, none)

/-- The media type that a text names. -/
def MediaType.read? (cs : List Char) : Option MediaType :=
  match cut? ['/'] cs with
  | none => none
  | some (main, rest) =>
    let sub := rest.takeWhile isToken
    let behind := rest.dropWhile isToken
    let parametersOk :=
      match behind with
      | [] => true
      | ';' :: parameters => !sub.isEmpty && parametersFit parameters
      | _ => false
    if !main.isEmpty && main.all isToken && parametersOk then
      let (name, suffix) := splitSuffix (sub.map Char.toLower)
      some { main := main.map Char.toLower, sub := name, suffix }
    else none

/-- The body is JSON by its type or by the suffix of its type. -/
def MediaType.isJson (m : MediaType) : Bool :=
  m.main == "application".toList && (m.sub == "json".toList || m.suffix == some "json".toList)

end QueryReview.Http
