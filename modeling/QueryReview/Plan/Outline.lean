-- Plan text as a forest. Each line with an arrow is a step, and a step hangs below the nearest
-- line above it that is indented less.
import QueryReview.Plan.Line

namespace QueryReview.Plan

open Text

/-- A step, and which of the steps before it is the one above it. -/
structure Entry where
  step : Step
  parent? : Option Nat

/-- The entries of the lines, numbered from `next`, where `stem` holds the numbers of the steps
that a line may still hang below, outermost first. A line that is indented too deep hangs below
the innermost of them. -/
def placeLines (stem : List Nat) (next : Nat) : List Line → List Entry
  | [] => []
  | line :: rest =>
    let above := stem.take line.level
    { step := { line.step with depth := above.length }, parent? := above.getLast? }
      :: placeLines (above ++ [next]) (next + 1) rest

/-- The forests of the entries from some entry on: those that hang below an earlier entry, by the
number of that entry, and those that hang below none. -/
structure Grafts where
  roots : Forest := .empty
  below : Nat → Forest := fun _ => .empty

/-- The entry of the given number, with all that hangs below it, in front of what hangs where it
does. -/
def Grafts.add (index : Nat) (entry : Entry) (g : Grafts) : Grafts :=
  match entry.parent? with
  | none => { g with roots := .grow entry.step (g.below index) g.roots }
  | some parent =>
    let grown := Forest.grow entry.step (g.below index) (g.below parent)
    { g with below := fun k => if k = parent then grown else g.below k }

/-- The last entry first: a step stands behind the step above it, so all that hangs below an entry
is there before the entry itself. -/
def graftFrom (index : Nat) : List Entry → Grafts
  | [] => {}
  | entry :: rest => (graftFrom (index + 1) rest).add index entry

/-- The forest of the entries, each below its parent. -/
def assemble (entries : List Entry) : Forest := (graftFrom 0 entries).roots

/-- The plan that a text describes. Lines without an arrow are skipped, and nothing is an error. -/
def Forest.parse (mode : Mode) (text : String) : Forest :=
  assemble (placeLines [] 0 ((lines text.toList).filterMap (Line.read? mode)))

end QueryReview.Plan
