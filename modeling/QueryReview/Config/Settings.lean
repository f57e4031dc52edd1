-- The settings of the service, and what follows from them.
import QueryReview.Failure
import QueryReview.Net.Endpoint
import QueryReview.Session.Options

namespace QueryReview.Config

structure ServerSettings where
  /-- The address to listen on. -/
  bind : String := "127.0.0.1:8080"
  /-- The longest body of a request, in bytes. -/
  maxBodyBytes : Nat := 1024 * 1024
deriving DecidableEq, Repr

structure DatabaseSettings where
  url : Option String := none
deriving DecidableEq, Repr

structure LogSettings where
  /-- Lines on the console are JSON. -/
  json : Bool := false
  /-- Logs are also written to files. -/
  fileLogs : Bool := false
  /-- Where the files go. -/
  directory : Option String := none
  /-- What is logged. -/
  filter : Option String := none
  /-- The beginning and the end of a span are logged. -/
  spans : Bool := false
deriving DecidableEq, Repr

structure Settings where
  server : ServerSettings := {}
  database : DatabaseSettings := {}
  session : Session.Options := {}
  logging : LogSettings := {}
deriving DecidableEq, Repr

/-- The endpoint to listen on. -/
def ServerSettings.endpoint (s : ServerSettings) : Except Failure Net.Endpoint :=
  match Net.Endpoint.read? s.bind with
  | some endpoint => .ok endpoint
  | none =>
    .error (.configuration
      ("invalid bind address '" ++ s.bind ++ "': invalid socket address syntax"))

/-! ## Logging -/

/-- What is logged where, once the standing values are filled in. -/
structure Logging where
  /-- Where log files go, unless there are none. -/
  directory : Option String
  jsonConsole : Bool
  spans : Bool
  filter : String
deriving DecidableEq, Repr

def standingFilter : String :=
  "info,qlens_server=debug,qlens_session=debug,qlens_analyzer=info,tower_http=info"

/-- The directory of log files below a directory for the data of programs. -/
def logDirectory (data : Option String) : String := data.getD "." ++ "/qlens/logs"

/-- The logging that the settings ask for, where `data` is the directory for the data of
programs. -/
def LogSettings.logging (data : Option String) (s : LogSettings) : Logging where
  directory := if s.fileLogs then some (s.directory.getD (logDirectory data)) else none
  jsonConsole := s.json
  spans := s.spans
  filter := s.filter.getD standingFilter

/-! ## Overrides -/

/-- Settings that are given beside the file and go before it. -/
structure Overrides where
  bind : Option String := none
  url : Option String := none
  jsonLogs : Bool := false
deriving DecidableEq, Repr

def Settings.override (s : Settings) (o : Overrides) : Settings where
  server := { s.server with bind := o.bind.getD s.server.bind }
  database := { s.database with url := o.url <|> s.database.url }
  session := s.session
  logging := { s.logging with json := o.jsonLogs || s.logging.json }

end QueryReview.Config
