-- Plans searched for operations, without regard to case.
import QueryReview.Plan.Forest
import QueryReview.Text.Find
import QueryReview.Text.Lower

namespace QueryReview.Plan

open Text

/-- The operation has the text in it, in small letters. -/
def Step.mentions (step : Step) (small : List Char) : Bool :=
  occursIn small (lower step.operation.toList)

/-- The step reads a whole table. -/
def Step.isTableScan (step : Step) : Bool := step.mentions "table scan".toList

/-- The step fills a temporary table. -/
def Step.usesTemporaryTable (step : Step) : Bool := step.mentions "temporary table".toList

/-- Some operation has the text in it, in any case. -/
def Forest.containsOperation (f : Forest) (needle : String) : Bool :=
  let small := lower needle.toList
  f.steps.any (·.mentions small)

/-- Some step reads a whole table. -/
def Forest.hasTableScans (f : Forest) : Bool := f.steps.any Step.isTableScan

end QueryReview.Plan
