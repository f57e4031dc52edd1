-- Plans and their warnings as documents.
import QueryReview.Plan.Warning
import QueryReview.Wire.Record

namespace QueryReview.Wire

open QueryReview.Plan

/-! ## Writing -/

def ofTiming (t : Timing) : Json :=
  .object [("start", .ofFloat t.first), ("end", .ofFloat t.last), ("total", .ofFloat t.total)]

/-- The members of a step, with `children` as the last of them. -/
def ofStep (step : Step) (children : Json) : Json :=
  .object [
    ("operation", .string step.operation),
    ("cost", .ofOption .ofFloat step.cost),
    ("estimated_rows", .ofOption .ofFloat step.estimatedRows),
    ("actual_time", .ofOption ofTiming step.timing),
    ("actual_rows", .ofOption .ofFloat step.actualRows),
    ("actual_loops", .ofOption .ofNat step.actualLoops),
    ("depth", .ofNat step.depth),
    ("children", children)]

/-- The trees of a forest. -/
def ofTrees : Forest → List Json
  | .empty => []
  | .grow step children rest => ofStep step (.array (ofTrees children)) :: ofTrees rest

/-- A forest is the list of its trees, each with the trees below it. -/
def ofForest (f : Forest) : Json := .array (ofTrees f)

def warningKindName : WarningKind → String
  | .fullTableScan => "full_table_scan"
  | .temporaryTable => "temporary_table"

def ofWarning (w : Warning) : Json :=
  .object [
    ("kind", .string (warningKindName w.kind)),
    ("severity", .string w.severity.name),
    ("operation", .string w.operation),
    ("message", .string w.message)]

/-! ## Reading -/

def readMode : Json → Option Mode :=
  readName [("estimated", .estimated), ("actual", .actual)]

def readTiming (j : Json) : Option Timing := do
  let r ← Record.of? 3 j
  let first ← r.required 0 "start" readFloat
  let last ← r.required 1 "end" readFloat
  let total ← r.required 2 "total" readFloat
  pure { first, last, total }

/-- The step in a document, without the steps below it. -/
def readStep (j : Json) : Option Step := do
  let r ← Record.of? 8 j
  let operation ← r.required 0 "operation" readString
  let cost ← r.optional 1 "cost" readFloat
  let estimatedRows ← r.optional 2 "estimated_rows" readFloat
  let timing ← r.optional 3 "actual_time" readTiming
  let actualRows ← r.optional 4 "actual_rows" readFloat
  let actualLoops ← r.optional 5 "actual_loops" (readNat max64)
  let depth ← r.required 6 "depth" (readNat max64)
  pure { operation, cost, estimatedRows, timing, actualRows, actualLoops, depth }

mutual

/-- The forest in a document. -/
def readForest : Json → Option Forest
  | .array items => readTrees items
  | _ => none

def readTrees : List Json → Option Forest
  | [] => some .empty
  | item :: rest => do
    let step ← readStep item
    let children ← readChildren item
    let beside ← readTrees rest
    pure (.grow step children beside)

/-- What is below the step in a document. -/
def readChildren : Json → Option Forest
  | .object members => readChildrenByName members
  | .array values => readChildrenByPlace 7 values
  | _ => none

def readChildrenByName : List (String × Json) → Option Forest
  | [] => none
  | (name, value) :: rest => if name = "children" then readForest value else readChildrenByName rest

def readChildrenByPlace : Nat → List Json → Option Forest
  | _, [] => none
  | 0, value :: _ => readForest value
  | n + 1, _ :: rest => readChildrenByPlace n rest

end

def readWarningKind : Json → Option WarningKind :=
  readName [("full_table_scan", .fullTableScan), ("temporary_table", .temporaryTable)]

def readSeverity : Json → Option Severity :=
  readName [("warning", .warning), ("info", .info)]

def readWarning (j : Json) : Option Warning := do
  let r ← Record.of? 4 j
  let kind ← r.required 0 "kind" readWarningKind
  let severity ← r.required 1 "severity" readSeverity
  let operation ← r.required 2 "operation" readString
  let message ← r.required 3 "message" readString
  pure { kind, severity, operation, message }

end QueryReview.Wire
