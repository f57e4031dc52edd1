-- Warnings: steps of a plan that often point at a missing index or a costly intermediate result.
import QueryReview.Decimal.Layout
import QueryReview.Plan.Search

namespace QueryReview.Plan

inductive Severity
  /-- Likely to be slow. -/
  | warning
  /-- Worth knowing. -/
  | info
deriving DecidableEq, Repr

def Severity.name : Severity → String
  | .warning => "warning"
  | .info => "info"

inductive WarningKind
  | fullTableScan
  | temporaryTable
deriving DecidableEq, Repr

namespace WarningKind

def description : WarningKind → String
  | fullTableScan => "Full table scan detected"
  | temporaryTable => "Temporary table created"

def severity : WarningKind → Severity
  | fullTableScan => .warning
  | temporaryTable => .info

/-- The step gives rise to a warning of this kind. -/
def applies : WarningKind → Step → Bool
  | fullTableScan => Step.isTableScan
  | temporaryTable => Step.usesTemporaryTable

/-- The kinds in the order in which they are reported for one step. -/
def all : List WarningKind := [fullTableScan, temporaryTable]

/-- What is said about the step, with the estimate of its rows if there is one. -/
def message (kind : WarningKind) (step : Step) : String :=
  match step.estimatedRows with
  | some rows =>
    kind.description ++ " (" ++ String.ofList (Decimal.plain rows) ++ " estimated rows)"
  | none => kind.description

end WarningKind

/-- A warning about one step. -/
structure Warning where
  kind : WarningKind
  severity : Severity
  operation : String
  message : String
deriving DecidableEq, Repr

def Warning.about (step : Step) (kind : WarningKind) : Warning :=
  { kind, severity := kind.severity, operation := step.operation, message := kind.message step }

/-- The warnings about a plan, in document order. -/
def Forest.warnings (f : Forest) : List Warning :=
  f.steps.flatMap fun step =>
    (WarningKind.all.filter fun kind => kind.applies step).map (Warning.about step)

end QueryReview.Plan
