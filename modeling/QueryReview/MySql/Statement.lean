-- What is said to a MySQL server: the statement that explains a query, and the name of a table
-- in its two parts.
import QueryReview.Plan.Forest
import QueryReview.Text.Blank
import QueryReview.Text.Find

namespace QueryReview.MySql

open Text

/-- What stands in front of a statement to have it explained. -/
def explainWords (mode : Plan.Mode) : String :=
  if mode.isActual then "EXPLAIN ANALYZE " else "EXPLAIN FORMAT=TREE "

/-- The query without white space around it and without semicolons at its end. -/
def bareQuery (sql : String) : List Char := dropEnd ';' (trim sql.toList)

/-- The statement that has the query explained. -/
def explainStatement (mode : Plan.Mode) (sql : String) : String :=
  explainWords mode ++ String.ofList (bareQuery sql)

/-- A table of the catalog. Without a schema it is in the current one. -/
structure TableName where
  schema : Option String
  name : String
deriving DecidableEq, Repr

/-- The name cut at its first point, if there is something on both sides of it. -/
def TableName.of (text : String) : TableName :=
  match cut? ['.'] text.toList with
  | some (schema, name) =>
    if schema.isEmpty ∨ name.isEmpty then { schema := none, name := text }
    else { schema := some (String.ofList schema), name := String.ofList name }
  | none => { schema := none, name := text }

end QueryReview.MySql
