-- URLs that name a MySQL server: a host, a port, and parameters of the connection.
import QueryReview.Failure
import QueryReview.Net.Endpoint

namespace QueryReview.MySql

open QueryReview.Text

/-- Why a URL names no server. -/
inductive UrlFault
  | noUrl
  | scheme
  | host
  | port
  | parameter
  | poolLimits
deriving DecidableEq, Repr

def UrlFault.message : UrlFault → String
  | noUrl => "relative URL without a base"
  | scheme => "URL scheme is not supported"
  | host => "Invalid or incomplete connection URL"
  | port => "invalid port number"
  | parameter => "unknown connection URL parameter, or a value that does not fit it"
  | poolLimits => "pool_min is greater than pool_max"

/-- A server that a URL names, and the least and most connections to keep to it. -/
structure Target where
  host : String
  port : Nat := 3306
  poolMin : Nat := 10
  poolMax : Nat := 100
deriving DecidableEq, Repr

/-! ## Parts of a URL -/

/-- The URL without blanks and control characters at its ends, and without line ends and tabs. -/
def cleaned (cs : List Char) : List Char :=
  let bare (cs : List Char) := cs.dropWhile (· ≤ ' ')
  (bare (bare cs).reverse).reverse.filter fun c => c != '\t' && c != '\n' && c != '\r'

/-- The scheme in small letters, and what follows its colon. -/
def scheme? (cs : List Char) : Option (List Char × List Char) :=
  match cut? [':'] cs with
  | some (first :: name, rest) =>
    if first.isAlpha ∧ name.all (fun c => c.isAlphanum || ['+', '-', '.'].contains c)
    then some ((first :: name).map Char.toLower, rest)
    else none
  | _ => none

/-- The text after the last of the given characters, or all of it. -/
def afterLast (c : Char) (cs : List Char) : List Char := (cs.reverse.takeWhile (· != c)).reverse

/-- The host, up to a colon that is not in brackets, and the rest. -/
def splitHost (bracketed : Bool) : List Char → List Char × List Char
  | [] => ([], [])
  | c :: cs =>
    if c = ':' ∧ ¬bracketed then ([], c :: cs)
    else
      let (host, rest) := splitHost (c == '[' || (bracketed && c != ']')) cs
      (c :: host, rest)

/-- The text names a host: eight groups in brackets, or a name without marks. -/
def isHost (cs : List Char) : Bool :=
  match cs with
  | [] => false
  | '[' :: inner =>
    inner.getLast? == some ']' && (Reader.whole? Net.ipv6 inner.dropLast).isSome
  | _ => cs.all fun c => !"\x00\t\n\r #/:<>?@[\\]^|".toList.contains c

/-- The port after a host, where an empty one is left out. -/
def port? : List Char → Option (Option Nat)
  | [] => some none
  | ':' :: cs =>
    match cs.takeWhile Char.isDigit, cs.dropWhile Char.isDigit with
    | [], [] | [], '\\' :: _ => some none
    | ds, [] | ds, '\\' :: _ => ((digitsValue? ds).filter (· ≤ 65535)).map some
    | _, _ => none
  | _ => none

/-! ## Parameters -/

/-- The text with its escapes resolved. An escape gives the character with the number of its
byte, which no name and no value of a parameter needs beyond ASCII. -/
def unescape : List Char → List Char
  | [] => []
  | '+' :: cs => ' ' :: unescape cs
  | '%' :: a :: b :: cs =>
    match hexValue? a, hexValue? b with
    | some high, some low => Char.ofNat (16 * high + low) :: unescape cs
    | _, _ => '%' :: unescape (a :: b :: cs)
  | c :: cs => c :: unescape cs

/-- The name and the value of a parameter. -/
def parameter (cs : List Char) : List Char × List Char :=
  let (name, value) := (cut? ['='] cs).getD (cs, [])
  (unescape name, unescape value)

/-- The parameters of a URL: those after its question mark, up to a number sign. -/
def parameters (cs : List Char) : List (List Char × List Char) :=
  match cut? ['?'] (cs.takeWhile (· != '#')) with
  | none => []
  | some (_, query) => ((query.splitOn '&').filter (!·.isEmpty)).map parameter

/-- What values a parameter takes. -/
inductive ParameterKind
  /-- A number of so many bits. -/
  | number (bits : Nat)
  | truth
  | compression
  | any

def parameterKinds : List (String × ParameterKind) := [
  ("pool_min", .number 64), ("pool_max", .number 64),
  ("inactive_connection_ttl", .number 64), ("ttl_check_interval", .number 64),
  ("conn_ttl", .number 64),
  ("abs_conn_ttl", .number 64), ("abs_conn_ttl_jitter", .number 64),
  ("tcp_keepalive", .number 32), ("tcp_nodelay", .truth),
  ("max_allowed_packet", .number 64), ("wait_timeout", .number 64),
  ("stmt_cache_size", .number 64), ("enable_cleartext_plugin", .truth),
  ("reset_connection", .truth), ("prefer_socket", .truth), ("secure_auth", .truth),
  ("client_found_rows", .truth), ("socket", .any), ("compression", .compression),
  ("require_ssl", .truth), ("verify_ca", .truth), ("verify_identity", .truth),
  ("built_in_roots", .truth)]

/-- The number that the text writes, where a plus sign may stand in front. -/
def number? : List Char → Option Nat
  | '+' :: cs => natural? cs
  | cs => natural? cs

def ParameterKind.takes (kind : ParameterKind) (value : List Char) : Bool :=
  match kind with
  | number bits => (number? value).any (· < Nat.pow 2 bits)
  | truth => value == "true".toList || value == "false".toList
  | compression =>
    ["fast", "on", "true", "best"].contains (String.ofList value)
      || (value.length == 1 && value.all Char.isDigit)
  | any => true

/-- The target with what the parameter says of it. -/
def addParameter (target : Target) (p : List Char × List Char) : Except UrlFault Target :=
  let (name, value) := (String.ofList p.1, p.2)
  if (parameterKinds.lookup name).any (·.takes value) then
    if name = "pool_min" then .ok { target with poolMin := (number? value).getD target.poolMin }
    else if name = "pool_max" then .ok { target with poolMax := (number? value).getD target.poolMax }
    else .ok target
  else .error .parameter

/-! ## Whole URLs -/

/-- The server that a URL names. -/
def Target.ofUrl (url : String) : Except UrlFault Target := do
  let (scheme, rest) ← (scheme? (cleaned url.toList)).elim (.error .noUrl) .ok
  if scheme ≠ "mysql".toList then .error .scheme
  let rest ← (after? ['/', '/'] rest).elim (.error .host) .ok
  let isPart (c : Char) := c != '/' && c != '?' && c != '#'
  let (host, portText) := splitHost false (afterLast '@' (rest.takeWhile isPart))
  if ¬isHost host then .error .host
  let port ← (port? portText).elim (.error .port) .ok
  let target ← (parameters (rest.dropWhile isPart)).foldlM addParameter
    { host := String.ofList host, port := port.getD 3306 }
  if target.poolMax < target.poolMin then .error .poolLimits
  pure target

/-- The server that a URL names, or what is wrong with the configuration. -/
def connect (url : String) : Except Failure Target :=
  (Target.ofUrl url).mapError fun fault => .configuration ("invalid MySQL URL: " ++ fault.message)

end QueryReview.MySql
