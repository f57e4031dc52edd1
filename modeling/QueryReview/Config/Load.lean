-- Settings out of a TOML document. Every table and every field may be missing, and names that
-- mean nothing here are passed over.
import QueryReview.Config.Settings
import QueryReview.Toml.Document

namespace QueryReview.Config

open Toml (Value Members)

/-! ## Fields -/

/-- The fields of a record, by name or in their order. -/
inductive Fields
  | named (members : Members)
  | row (values : List Value)

/-- The fields in a value. A moment has none of any name. -/
def Fields.of? : Value → Option Fields
  | .table _ members => some (.named members)
  | .moment _ => some (.named [])
  | .array items => some (.row items)
  | .tables rows => some (.row (rows.map (.table .header)))
  | _ => none

def Fields.field? (fs : Fields) (place : Nat) (name : String) : Option Value :=
  match fs with
  | named members => members.get? name
  | row values => values[place]?

/-- A field that takes a standing value when it is missing. -/
def Fields.orElse {α : Type} (fs : Fields) (place : Nat) (name : String)
    (read : Value → Option α) (standing : α) : Option α :=
  match fs.field? place name with
  | none => some standing
  | some value => read value

def readString : Value → Option String
  | .string s => some s
  | _ => none

def readBool : Value → Option Bool
  | .bool b => some b
  | _ => none

/-- A whole number that is not negative. -/
def readNat : Value → Option Nat
  | .integer n => if 0 ≤ n then some n.toNat else none
  | _ => none

/-- One of several names. The name may also be the only member of a table, with nothing in it: an
empty table or an empty array. -/
def readName {α : Type} (names : List (String × α)) : Value → Option α
  | .string name => names.lookup name
  | .table _ [(name, .table _ [])] => names.lookup name
  | .table _ [(name, .array [])] => names.lookup name
  | _ => none

/-! ## Settings -/

def readServer (v : Value) : Option ServerSettings := do
  let fs ← Fields.of? v
  let standing : ServerSettings := {}
  let bind ← fs.orElse 0 "bind" readString standing.bind
  let maxBodyBytes ← fs.orElse 1 "max_body_bytes" readNat standing.maxBodyBytes
  pure { bind, maxBodyBytes }

def readDatabase (v : Value) : Option DatabaseSettings := do
  let fs ← Fields.of? v
  let url ← fs.orElse 0 "url" (some <$> readString ·) none
  pure { url }

def readSession (v : Value) : Option Session.Options := do
  let fs ← Fields.of? v
  let standing : Session.Options := {}
  let modes := [("sequential", Session.ExecutionMode.sequential), ("parallel", .parallel)]
  let mode ← fs.orElse 0 "mode" (readName modes) standing.mode
  let maxParallelism ← fs.orElse 1 "max_parallelism" readNat standing.maxParallelism
  let queryTimeoutMs ← fs.orElse 2 "query_timeout_ms" readNat standing.queryTimeoutMs
  let rejectMultipleStatements ←
    fs.orElse 3 "reject_multiple_statements" readBool standing.rejectMultipleStatements
  let maxQueries ← fs.orElse 4 "max_queries" readNat standing.maxQueries
  pure { mode, maxParallelism, queryTimeoutMs, rejectMultipleStatements, maxQueries }

def readLogging (v : Value) : Option LogSettings := do
  let fs ← Fields.of? v
  let json ← fs.orElse 0 "json" readBool false
  let fileLogs ← fs.orElse 1 "file_logs" readBool false
  let directory ← fs.orElse 2 "directory" (some <$> readString ·) none
  let filter ← fs.orElse 3 "filter" (some <$> readString ·) none
  let spans ← fs.orElse 4 "spans" readBool false
  pure { json, fileLogs, directory, filter, spans }

/-- The settings that a document gives. -/
def ofMembers (ms : Members) : Option Settings := do
  let fs := Fields.named ms
  let server ← fs.orElse 0 "server" readServer {}
  let database ← fs.orElse 1 "database" readDatabase {}
  let session ← fs.orElse 2 "session" readSession {}
  let logging ← fs.orElse 3 "logging" readLogging {}
  pure { server, database, session, logging }

/-! ## Files -/

/-- Why settings cannot be loaded. -/
inductive LoadFault
  | failure (f : Failure)
  /-- The text is no TOML document, or it does not fit the settings. -/
  | malformed
deriving DecidableEq, Repr

/-- Settings as the text of a document. -/
def ofText (text : String) : Except LoadFault Settings :=
  match (Toml.read? text).bind ofMembers with
  | some settings => .ok settings
  | none => .error .malformed

/-- The settings in a file, by its bytes, which are missing when there is no file. -/
def load : Option ByteArray → Except LoadFault Settings
  | none => .error (.failure (.io "No such file or directory (os error 2)"))
  | some bytes =>
    match String.fromUTF8? bytes with
    | none => .error (.failure (.io "stream did not contain valid UTF-8"))
    | some text => ofText text

end QueryReview.Config
