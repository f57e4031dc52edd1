-- The command line: it reads the settings as the service does before it starts, checks the address
-- to listen on and the URL of the database, and prints the settings, or what is wrong with them.
import QueryReview.Config.Arguments
import QueryReview.Config.Load
import QueryReview.MySql.Url
import QueryReview.Wire.Config

namespace QueryReview.Config

/-- What is said when settings cannot be loaded. -/
def LoadFault.message : LoadFault → String
  | .failure f => f.message
  | .malformed => "the file holds no settings in TOML"

/-- The settings that the arguments lead to, by the bytes of their file if they name one. -/
def settings (a : Arguments) (bytes : Option ByteArray) : Except String Settings := do
  let loaded ← match a.file with
    | none => pure {}
    | some _ => (load bytes).mapError LoadFault.message
  pure (loaded.override a.overrides)

/-- The settings are such that the service can start. -/
def check (s : Settings) : Except String Unit := do
  let url ← s.database.url.elim (.error "no database URL; pass --database-url") .ok
  let _ ← s.server.endpoint.mapError Failure.message
  let _ ← (MySql.connect url).mapError Failure.message

/-- What the command prints. -/
def outcome (a : Arguments) (bytes : Option ByteArray) : Except String String := do
  let s ← settings a bytes
  check s
  pure (String.ofList (Wire.ofSettings s).render)

end QueryReview.Config

/-- The bytes of a file, unless it cannot be read. -/
def bytesOfFile (path : String) : IO (Option ByteArray) := do
  try
    return some (← IO.FS.readBinFile path)
  catch _ =>
    return none

def main (args : List String) : IO UInt32 := do
  match QueryReview.Config.Arguments.read? {} args with
  | none =>
    IO.eprintln "usage: [--config FILE] [--bind ADDRESS] [--database-url URL] [--json-logs]"
    return 2
  | some arguments =>
    let bytes ← match arguments.file with
      | none => pure none
      | some path => bytesOfFile path
    match QueryReview.Config.outcome arguments bytes with
    | .ok text =>
      IO.println text
      return 0
    | .error text =>
      IO.eprintln text
      return 1
