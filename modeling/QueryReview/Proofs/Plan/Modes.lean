-- The two modes of reading a plan. They share one pass over the groups of a line, and a group that
-- was measured touches nothing that was estimated: neither a number nor the mark that an estimate
-- was seen. So a plan without its measurements is the plan that is read when none are asked for.
import QueryReview.Proofs.Plan.Reading
import QueryReview.Proofs.Plan.Shape

namespace QueryReview.Plan

/-! ## One change to every step -/

/-- The plan with one change made to each of its steps. -/
def Forest.map (change : Step → Step) : Forest → Forest
  | empty => empty
  | grow step children rest => grow (change step) (children.map change) (rest.map change)

theorem Forest.preorder_map (change : Step → Step) (f : Forest) (level : Nat) :
    (f.map change).preorder level = (f.preorder level).map fun e => (e.1, change e.2) := by
  induction f generalizing level with
  | empty => rfl
  | grow step children rest ihc ihr => simp [map, preorder, ihc, ihr]

/-- A change that has no regard to the depth of a step may be made before the lines are placed. -/
theorem nested_map {change : Step → Step}
    (hd : ∀ (step : Step) (depth : Nat),
      change { step with depth } = { change step with depth }) (most : Nat) (ls : List Line) :
    nested most (ls.map fun l => { l with step := change l.step })
      = (nested most ls).map fun e => (e.1, change e.2) := by
  induction ls generalizing most with
  | nil => rfl
  | cons line rest ih =>
    simp only [List.map_cons, nested]
    rw [ih, hd line.step (min line.level most)]

/-! ## Without the measurements -/

def Step.withoutMeasurements (step : Step) : Step :=
  { step with timing := none, actualRows := none, actualLoops := none }

def Reading.withoutMeasurements (r : Reading) : Reading :=
  { r with step := r.step.withoutMeasurements, seenActual := false }

def Line.withoutMeasurements (line : Line) : Line :=
  { line with step := line.step.withoutMeasurements }

/-- The plan without what was measured. The steps stay, with all that was estimated. -/
def Forest.withoutMeasurements (f : Forest) : Forest := f.map Step.withoutMeasurements

/-- The modes go on in the same way after each group, but for the measurements. -/
theorem addGroup_withoutMeasurements (r : Reading) (group : List Char) :
    r.withoutMeasurements.addGroup .estimated group
      = (r.addGroup .actual group).withoutMeasurements := by
  have hsame : r.withoutMeasurements.seenEstimate = r.seenEstimate := rfl
  unfold Reading.addGroup
  by_cases hactual : isActualGroup group = true
  · -- One mode reads nothing from the group, and what the other one reads is left out.
    rw [if_pos hactual, if_pos hactual, if_neg (by simp [Mode.isActual])]
    split
    · rfl
    · rfl
  · rw [if_neg hactual, if_neg hactual, hsame]
    split
    · rfl
    · rfl

theorem withMetrics_withoutMeasurements (step : Step) (metrics : List Char) :
    (step.withMetrics .actual metrics).withoutMeasurements
      = step.withoutMeasurements.withMetrics .estimated metrics := by
  have hfold : ∀ (groups : List (List Char)) (r : Reading),
      groups.foldl (Reading.addGroup .estimated) r.withoutMeasurements
        = (groups.foldl (Reading.addGroup .actual) r).withoutMeasurements :=
    fun _ _ => List.foldl_hom _ addGroup_withoutMeasurements
  exact congrArg Reading.step (hfold _ { step }).symm

theorem read?_withoutMeasurements (line : List Char) :
    (Line.read? .actual line).map Line.withoutMeasurements = Line.read? .estimated line := by
  unfold Line.read?
  rw [Option.map_map]
  congr 1
  funext ⟨_, behind⟩
  simp only [Function.comp_apply, Line.withoutMeasurements, withMetrics_withoutMeasurements]
  rfl

theorem stepLines_withoutMeasurements (text : String) :
    (stepLines .actual text).map Line.withoutMeasurements = stepLines .estimated text := by
  unfold stepLines
  rw [List.map_filterMap]
  simp only [read?_withoutMeasurements]

/-- Read with measurements and then without them, a text gives the plan that is read when none are
asked for: the same steps on the same levels, with the same operations, costs and estimated
rows. -/
theorem the_mode_only_adds_measurements (text : String) :
    (Forest.parse .actual text).withoutMeasurements = Forest.parse .estimated text := by
  apply Forest.eq_of_preorder 0
  have hnested : nested 0 ((stepLines .actual text).map Line.withoutMeasurements)
      = (nested 0 (stepLines .actual text)).map fun e => (e.1, e.2.withoutMeasurements) :=
    nested_map (fun _ _ => rfl) 0 _
  calc ((Forest.parse .actual text).map Step.withoutMeasurements).preorder 0
      = (nested 0 (stepLines .actual text)).map fun e => (e.1, e.2.withoutMeasurements) := by
        rw [Forest.preorder_map, ← Forest.walk_eq_preorder, walk_parse]
    _ = nested 0 (stepLines .estimated text) := by
        rw [← stepLines_withoutMeasurements, hnested]
    _ = (Forest.parse .estimated text).preorder 0 := by
        rw [← walk_parse, Forest.walk_eq_preorder]

end QueryReview.Plan
