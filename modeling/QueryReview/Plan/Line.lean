-- One line of plan text: its indentation, its operation and its metrics.
import QueryReview.Decimal.Numeral
import QueryReview.Plan.Render
import QueryReview.Text.Blank
import QueryReview.Text.Word

namespace QueryReview.Plan

open Text Decimal

/-! ## Values inside a group -/

/-- The readings of the numeral at the start of the text that leave no digit behind, longest
first. A point at the end of a numeral may also be left to what follows. -/
def numeralReadings (cs : List Char) : List (Numeral × List Char) :=
  match Numeral.read? cs with
  | none => []
  | some (n, rest) =>
    if n.point ∧ n.fraction = [] ∧ n.exponent = none then
      [(n, rest), ({ n with point := false }, '.' :: rest)]
    else [(n, rest)]

/-- The numeral behind the two points that end the first half of a range. -/
def rangeEnd? (cs : List Char) : Option Numeral :=
  (after? "..".toList cs).bind fun rest => (Numeral.read? rest).map Prod.fst

/-- The cost at the start of the text. Of a range it is the end. -/
def costAt? (cs : List Char) : Option Numeral :=
  (after? "cost=".toList cs).bind fun rest =>
    (Numeral.read? rest).map fun (n, rest) => (rangeEnd? rest).getD n

/-- The count of rows at the start of the text. -/
def rowsAt? (cs : List Char) : Option Numeral :=
  (after? "rows=".toList cs).bind fun rest => (Numeral.read? rest).map Prod.fst

/-- The range of times at the start of the text. -/
def timesAt? (cs : List Char) : Option (Numeral × Numeral) :=
  (after? "actual time=".toList cs).bind fun rest =>
    (numeralReadings rest).findSome? fun (n, rest) => (rangeEnd? rest).map fun m => (n, m)

/-- The digits of the count of loops at the start of the text. -/
def loopsAt? (cs : List Char) : Option (List Char) :=
  (after? "loops=".toList cs).bind fun rest =>
    match rest.takeWhile isAnyDigit with
    | [] => none
    | digits => some digits

/-- The largest count of loops. -/
def maxLoops : Nat := Nat.pow 2 64 - 1

/-- The count of loops in a group. -/
def loopsIn (group : List Char) : Option Nat :=
  (firstAtWordStart loopsAt? none group).bind fun digits =>
    (natural? digits).filter (· ≤ maxLoops)

def costIn (group : List Char) : Option Float :=
  (firstAtWordStart costAt? none group).bind Numeral.value?

def rowsIn (group : List Char) : Option Float :=
  (firstAtWordStart rowsAt? none group).bind Numeral.value?

/-- The times in a group, for so many loops. -/
def timingIn (loops : Nat) (group : List Char) : Option Timing :=
  (firstAtWordStart timesAt? none group).bind fun (n, m) => do
    let first ← n.value?
    let last ← m.value?
    pure (Timing.ofLoops first last loops)

/-! ## Groups -/

/-- What a group of metrics must start with for the operation to end there. -/
def metricsOpeners : List (List Char) :=
  ["(cost=", "(rows=", "(actual time=", "(never executed)"].map String.toList

/-- The text before the metrics, and the metrics. -/
def splitMetrics : List Char → List Char × List Char
  | [] => ([], [])
  | c :: cs =>
    if metricsOpeners.any (startsWith · (c :: cs)) then ([], c :: cs)
    else
      let (operation, metrics) := splitMetrics cs
      (c :: operation, metrics)

/-- What stands in parentheses that hold no other parentheses, where `open_` is what has been read
since an opening one, in reverse. -/
def groupsFrom (open_ : Option (List Char)) : List Char → List (List Char)
  | [] => []
  | c :: cs =>
    if c = '(' then groupsFrom (some []) cs
    else if c = ')' then
      match open_ with
      | some group => group.reverse :: groupsFrom none cs
      | none => groupsFrom none cs
    else groupsFrom (open_.map (c :: ·)) cs

/-- A step while its groups are read: the first group of each kind counts. -/
structure Reading where
  step : Step
  seenEstimate : Bool := false
  seenActual : Bool := false

/-- The group tells what was measured. -/
def isActualGroup (group : List Char) : Bool := startsWith "actual".toList group

/-- The group tells what was estimated. -/
def isEstimateGroup (group : List Char) : Bool :=
  occursIn "cost=".toList group || occursIn "rows=".toList group

def Step.withEstimate (step : Step) (group : List Char) : Step :=
  { step with cost := costIn group, estimatedRows := rowsIn group }

def Step.withActual (step : Step) (group : List Char) : Step :=
  let loops := loopsIn group
  { step with
    timing := timingIn (loops.getD 1) group
    actualRows := rowsIn group
    actualLoops := loops }

/-- One group. Measurements are read only when the mode asks for them. -/
def Reading.addGroup (mode : Mode) (r : Reading) (group : List Char) : Reading :=
  if isActualGroup group then
    if mode.isActual && !r.seenActual then
      { r with step := r.step.withActual group, seenActual := true }
    else r
  else if !r.seenEstimate && isEstimateGroup group then
    { r with step := r.step.withEstimate group, seenEstimate := true }
  else r

/-- The step with the metrics of the groups in the text. -/
def Step.withMetrics (step : Step) (mode : Mode) (metrics : List Char) : Step :=
  (((groupsFrom none metrics).map trim).foldl (Reading.addGroup mode) { step }).step

/-! ## The line -/

/-- A line with a step on it, and how deep the line is indented. -/
structure Line where
  level : Nat
  step : Step

/-- The level of a line: its leading spaces, in whole units of indentation. -/
def indentLevel (line : List Char) : Nat := (line.takeWhile (· == ' ')).length / indentWidth

/-- The step behind the arrow. A line without an arrow holds none. -/
def Line.read? (mode : Mode) (line : List Char) : Option Line :=
  (cut? "->".toList line).map fun (_, behind) =>
    let (operation, metrics) := splitMetrics (trim behind)
    { level := indentLevel line
      step := Step.withMetrics { operation := String.ofList (trim operation) } mode metrics }

end QueryReview.Plan
