-- The report of a session as one text: a header, the figures, and a section for each query.
import QueryReview.Decimal.Layout
import QueryReview.Plan.Render
import QueryReview.Report.Columns
import QueryReview.Session.Summary
import QueryReview.Time.Calendar

namespace QueryReview.Report

open Session Text

abbrev Line := List Char

def heavyRule : Line := List.replicate 80 '='

def lightRule : Line := List.replicate 80 '-'

/-- Seconds to four places. -/
def seconds (d : Time.Duration) : List Char := Decimal.fixed 4 d.seconds ++ ['s']

def number (n : Nat) : List Char := Decimal.digitChars n

/-! ## Header and figures -/

/-- The header, with the time at which the report is made. -/
def header (epochSeconds : Int) (summary : Summary) (includeActual : Bool) : List Line :=
  [ heavyRule, "SQL ANALYSIS REPORT".toList, heavyRule,
    "Generated: ".toList ++ Time.stamp epochSeconds ++ " UTC".toList,
    "Mode: ".toList ++ (if includeActual then "EXPLAIN + EXPLAIN ANALYZE" else "EXPLAIN").toList,
    "Queries: ".toList ++ number summary.totalQueries ]

/-- The name, place and time of a query. -/
def mention (r : QueryResult) : Except Abort (List Char) := do
  let place ← placeNumber r.index
  pure (r.request.label.toList ++ " (#".toList ++ number place ++ ", ".toList
    ++ seconds (r.duration.getD .zero) ++ [')'])

/-- The slowest query, if the results have one with its index. -/
def slowestText (results : List QueryResult) (summary : Summary) : Except Abort (List Char) :=
  match summary.slowestQueryIndex.bind fun index => results.find? (·.index == index) with
  | some r => mention r
  | none => pure "none".toList

def figures (slowest : List Char) (summary : Summary) : List (List Cell) :=
  [ ["Total queries:".toList, number summary.totalQueries],
    ["Successful:".toList, number summary.successfulQueries],
    ["Failed:".toList, number summary.failedQueries],
    ["Total execution time:".toList, seconds summary.totalExecutionTime],
    ["Total cost:".toList, (toString summary.totalCost).toList],
    ["Slowest query:".toList, slowest],
    ["Full table scans:".toList, (if summary.hasWarnings then "yes" else "no").toList] ]

def executiveSummary (results : List QueryResult) (summary : Summary) :
    Except Abort (List Line) := do
  let slowest ← slowestText results summary
  let rows ← alignRows (figures slowest summary)
  pure ([[], "EXECUTIVE SUMMARY".toList, lightRule] ++ rows)

/-! ## One query -/

/-- How the query ended, and how long it took if that is known. -/
def statusLine (r : QueryResult) : Line :=
  match r.error, r.duration with
  | some e, _ => "Status: ERROR - ".toList ++ e.message.toList
  | none, some d => "Status: OK (".toList ++ seconds d ++ [')']
  | none, none => "Status: OK".toList

def planSection (title : String) (plan : Option Plan.Forest) : List Line :=
  match plan with
  | none => []
  | some f =>
    [] :: title.toList
      :: if f.isEmpty then ["(empty plan)".toList] else lines f.renderChars

def warningLine (w : Plan.Warning) : Line :=
  "- [".toList ++ w.severity.name.toList ++ "] ".toList ++ w.operation.toList ++ ": ".toList
    ++ w.message.toList

def warningSection (warnings : List Plan.Warning) : List Line :=
  if warnings.isEmpty then [] else [] :: "WARNINGS:".toList :: warnings.map warningLine

def yesNo (b : Bool) : Cell := (if b then "YES" else "NO").toList

def columnRow (c : Catalog.Column) : List Cell :=
  [ c.name.toList, c.dataType.toList, yesNo c.nullable, c.key.flag.toList,
    (c.defaultValue.getD "NULL").toList, c.extra.toList ]

def indexRow (p : Catalog.IndexPart) : List Cell :=
  [ p.indexName.toList, (p.column.getD "-").toList, number p.place, yesNo p.isUnique,
    p.indexType.toList ]

/-- The table under its title, or a note that there is nothing in it. -/
def tableSection (title name : String) (note : String) (header : List String)
    (rows : List (List Cell)) : Except Abort (List Line) := do
  let body ←
    if rows.isEmpty then pure [note.toList] else alignTable (header.map String.toList) rows
  pure ([] :: (title.toList ++ name.toList) :: body)

def schemaSection (s : Catalog.TableSchema) : Except Abort (List Line) := do
  let columns ← tableSection "TABLE: " s.table "(no columns)"
    ["Column", "Type", "Null", "Key", "Default", "Extra"] (s.columns.map columnRow)
  let indexes ← tableSection "INDEXES: " s.table "(no indexes)"
    ["Name", "Column", "Seq", "Unique", "Type"] (s.indexes.map indexRow)
  pure (columns ++ indexes)

/-- The sections one after the other. -/
def sections {α : Type} (write : α → Except Abort (List Line)) (items : List α) :
    Except Abort (List Line) := do
  let parts ← items.mapM write
  pure parts.flatten

/-- The section of a query. The tables are shown only if it succeeded. -/
def querySection (r : QueryResult) : Except Abort (List Line) := do
  let place ← placeNumber r.index
  let tables ← if r.isSuccess then sections schemaSection r.schemas else pure []
  pure ([ [], heavyRule,
      "QUERY ".toList ++ number place ++ ": ".toList ++ r.request.label.toList, heavyRule,
      statusLine r, [], "SQL:".toList, r.request.sql.toList ]
    ++ planSection "EXPLAIN ANALYZE:" r.actual ++ planSection "EXPLAIN:" r.estimated
    ++ warningSection r.warnings ++ tables)

/-! ## The whole report -/

/-- The clock, as seconds after the start of 1970, or its failure. -/
abbrev Clock := Except Abort Int

/-- The lines of the report. -/
def reportLines (clock : Clock) (results : List QueryResult) (summary : Summary)
    (includeActual : Bool) : Except Abort (List Line) := do
  let now ← clock
  let top ← executiveSummary results summary
  let queries ← sections querySection results
  pure (header now summary includeActual ++ top ++ queries)

/-- The report. Its last line ends in a line feed too. -/
def report (clock : Clock) (results : List QueryResult) (summary : Summary)
    (includeActual : Bool) : Except Abort String := do
  let lines ← reportLines clock results summary includeActual
  pure (String.ofList (join ['\n'] lines ++ ['\n']))

end QueryReview.Report
