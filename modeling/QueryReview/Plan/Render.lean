-- Plans as text: a line for each step, indented by its level, with the metrics in groups behind
-- the operation.
import QueryReview.Decimal.Layout
import QueryReview.Plan.Forest
import QueryReview.Text.Find

namespace QueryReview.Plan

open Text

/-- Spaces in front of a step for each level above it. -/
def indentWidth : Nat := 4

/-- The estimates of a step. -/
def Step.estimateParts (step : Step) : List (List Char) :=
  (step.cost.map fun x => "cost=".toList ++ Decimal.fixed 2 x).toList
    ++ (step.estimatedRows.map fun x => "rows=".toList ++ Decimal.count x).toList

/-- The measurements of a step. -/
def Step.actualParts (step : Step) : List (List Char) :=
  (step.timing.map fun t =>
      "actual time=".toList ++ Decimal.fixed 3 t.first ++ "..".toList ++ Decimal.fixed 3 t.last).toList
    ++ (step.actualRows.map fun x => "rows=".toList ++ Decimal.count x).toList
    ++ (step.actualLoops.map fun n => "loops=".toList ++ Decimal.digitChars n).toList

/-- The parts in parentheses after the gap, or nothing when there are none. -/
def group (gap : String) (parts : List (List Char)) : List Char :=
  if parts.isEmpty then [] else gap.toList ++ '(' :: join [' '] parts ++ [')']

/-- The groups of metrics. The first one stands two spaces behind the operation. -/
def Step.metrics (step : Step) : List Char :=
  let actualGap := if step.estimateParts.isEmpty then "  " else " "
  group "  " step.estimateParts ++ group actualGap step.actualParts

/-- The line of a step. -/
def renderLine (level : Nat) (step : Step) : List Char :=
  List.replicate (level * indentWidth) ' ' ++ "-> ".toList ++ step.operation.toList ++ step.metrics

/-- The plan as text, without a line feed at its end. -/
def Forest.renderChars (f : Forest) : List Char :=
  join ['\n'] (f.walk.map fun (level, step) => renderLine level step)

def Forest.render (f : Forest) : String := String.ofList f.renderChars

end QueryReview.Plan
