-- Query plans: steps with their metrics, nested to any depth. A plan is an ordered forest, since
-- a database may print more than one outermost step.

namespace QueryReview.Plan

/-- Which plan is asked for: the planner's estimates only, or those with measurements. -/
inductive Mode
  | estimated
  | actual
deriving DecidableEq, Repr

def Mode.isActual (m : Mode) : Bool := m == .actual

/-- Measured times in milliseconds. -/
structure Timing where
  /-- Until the first row, in one loop. -/
  first : Float
  /-- Until the last row, in one loop. -/
  last : Float
  /-- Until the last row, over all loops. -/
  total : Float
deriving BEq, Repr

/-- The times of a step that ran so often. -/
def Timing.ofLoops (first last : Float) (loops : Nat) : Timing :=
  { first, last, total := last * loops.toUInt64.toFloat }

/-- One step of a plan: what it does, what it was estimated to cost, and how it ran. -/
structure Step where
  operation : String
  cost : Option Float := none
  estimatedRows : Option Float := none
  timing : Option Timing := none
  actualRows : Option Float := none
  actualLoops : Option Nat := none
  /-- The nesting depth that the step was recorded with. -/
  depth : Nat := 0
deriving BEq, Repr

/-- Steps in order, each with the steps below it: the first step, what is below it, and the steps
beside it that follow. -/
inductive Forest
  | empty
  | grow (step : Step) (children rest : Forest)
deriving BEq, Repr, Inhabited

namespace Forest

def isEmpty : Forest → Bool
  | empty => true
  | grow _ _ _ => false

/-- How many empty and grown places the forest is built of. -/
def weight : Forest → Nat
  | empty => 1
  | grow _ children rest => 1 + children.weight + rest.weight

def stackWeight : List (Nat × Forest) → Nat
  | [] => 0
  | (_, f) :: stack => f.weight + stackWeight stack

/-- The steps of the forests on a stack, each forest with its level. The forest on top comes
first, and what is below a step comes before what is beside it. -/
def walkStack (stack : List (Nat × Forest)) : List (Nat × Step) :=
  match stack with
  | [] => []
  | (_, empty) :: stack => walkStack stack
  | (level, grow step children rest) :: stack =>
    (level, step) :: walkStack ((level + 1, children) :: (level, rest) :: stack)
termination_by stackWeight stack
decreasing_by
  · simp [stackWeight, weight]
  · simp only [stackWeight, weight]; omega

/-- The steps in document order, each with its level: 0 for a root, one more for each step above
it. -/
def walk (f : Forest) : List (Nat × Step) := walkStack [(0, f)]

/-- The steps in document order. -/
def steps (f : Forest) : List Step := f.walk.map Prod.snd

def stepCount (f : Forest) : Nat := f.walk.length

/-- The number of steps in the tree of each root. -/
def treeSizes : Forest → List Nat
  | empty => []
  | grow step children rest => (grow step children empty).stepCount :: rest.treeSizes

def rootCount : Forest → Nat
  | empty => 0
  | grow _ _ rest => rest.rootCount + 1

/-- The number of levels, 0 for the empty forest. -/
def height (f : Forest) : Nat := f.walk.foldl (fun most (level, _) => max most (level + 1)) 0

/-- The estimated cost of the first root. -/
def rootCost : Forest → Option Float
  | empty => none
  | grow step _ _ => step.cost

/-- The steps in document order, each with the number of steps right below it. -/
def stepsWithChildren : Forest → List (Step × Nat)
  | empty => []
  | grow step children rest =>
    (step, children.rootCount) :: (children.stepsWithChildren ++ rest.stepsWithChildren)

end Forest

end QueryReview.Plan
