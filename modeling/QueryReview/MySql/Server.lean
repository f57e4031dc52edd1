-- A MySQL server as the database of a session: what it is sent for each call, and how its rows
-- and its errors become answers.
import QueryReview.MySql.Statement
import QueryReview.Session.Dialogue

namespace QueryReview.MySql

open Session (Call)

/-! ## Rows -/

/-- A row about a column, as the server has it. -/
structure ColumnRow where
  name : String
  dataType : String
  nullable : String
  key : String
  defaultValue : Option String
  extra : String
deriving DecidableEq, Repr

/-- A row about one column of an index, as the server has it. -/
structure IndexRow where
  indexName : String
  indexType : String
  nonUnique : Int
  column : Option String
  place : Nat
deriving DecidableEq, Repr

def ColumnRow.column (r : ColumnRow) : Catalog.Column where
  name := r.name
  dataType := r.dataType
  nullable := r.nullable.toList.map Char.toLower == ['y', 'e', 's']
  key := .ofFlag r.key
  defaultValue := r.defaultValue
  extra := r.extra

def IndexRow.part (r : IndexRow) : Catalog.IndexPart where
  indexName := r.indexName
  indexType := r.indexType
  isUnique := r.nonUnique == 0
  column := r.column
  place := r.place

/-! ## Servers -/

/-- What the server is sent. -/
inductive Question
  | statement (text : String)
  | columns (table : TableName)
  | indexes (table : TableName)
deriving DecidableEq, Repr

/-- What is sent for a call. -/
def Question.ofCall : Call → Question
  | .plan mode sql => .statement (explainStatement mode sql)
  | .columns table => .columns (.of table)
  | .indexes table => .indexes (.of table)

/-- An error that the server answers with. -/
structure ServerError where
  code : Nat
  state : String
  text : String
deriving DecidableEq, Repr

def ServerError.message (e : ServerError) : String :=
  "Server error: \x60ERROR " ++ e.state ++ " (" ++ toString e.code ++ "): " ++ e.text ++ "'"

/-- A server whose answer hangs on the question alone. -/
structure Server where
  lines : String → Except ServerError (List String)
  columns : TableName → Except ServerError (List ColumnRow)
  indexes : TableName → Except ServerError (List IndexRow)

/-- The server's answer to a call. -/
def Server.fetch (server : Server) : (call : Call) → Except Failure call.Answer
  | .plan mode sql =>
    match server.lines (explainStatement mode sql) with
    | .ok lines => .ok ("\n".intercalate lines)
    | .error e => .error (.query e.message)
  | .columns table =>
    match server.columns (.of table) with
    | .ok rows => .ok (rows.map ColumnRow.column)
    | .error e => .error (.schema ("Failed to load columns for " ++ table ++ ": " ++ e.message))
  | .indexes table =>
    match server.indexes (.of table) with
    | .ok rows => .ok (rows.map IndexRow.part)
    | .error e => .error (.schema ("Failed to load indexes for " ++ table ++ ": " ++ e.message))

/-! ## Connections -/

/-- The way to a server. -/
inductive Link
  | connected (server : Server)
  /-- No connection comes about, for the given reason. -/
  | unreachable (reason : String)

def Link.fetch (link : Link) (call : Call) : Except Failure call.Answer :=
  match link with
  | connected server => server.fetch call
  | unreachable reason => .error (.connection ("Failed to get MySQL connection: " ++ reason))

/-- What reaches the server for a call. -/
def Link.sent (link : Link) (call : Call) : List Question :=
  match link with
  | connected _ => [.ofCall call]
  | unreachable _ => []

/-- The database behind a link. It answers at once. -/
def Link.collaborator (link : Link) : Session.Collaborator := fun call =>
  match link.fetch call with
  | .ok answer => { delay := 0, outcome := .answer answer }
  | .error f => { delay := 0, outcome := .failure f }

end QueryReview.MySql
