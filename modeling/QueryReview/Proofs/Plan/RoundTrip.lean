-- Plans that are written as text and read again. The lines come back one by one, and the levels
-- that they are written on are levels of a plan, so none of them is cut when the lines are nested
-- again. What comes back is the plan itself, but for a step of which nothing is shown but the count
-- of its loops: its metrics come back as a part of its operation.
import Mathlib.Data.List.Forall2
import QueryReview.Proofs.Plan.Reading
import QueryReview.Proofs.Plan.RenderedLine
import QueryReview.Proofs.Plan.Shape

namespace QueryReview.Plan

open List (Forall₂)
open Text

/-- A step on its level, and the step that comes back for it from its line. -/
structure ReadBack (mode : Mode) (written read : Nat × Step) : Prop where
  level : read.1 = written.1
  depth : read.2.depth = written.1
  operation : read.2.operation.toList = written.2.rereadOperation
  line : ∃ l, Line.read? mode (renderLine written.1 written.2) = some l ∧
    read.2 = { l.step with depth := written.1 }

/-! ## Any plan with tidy steps -/

theorem lines_render {plan : Forest} (h : ∀ e ∈ plan.walk, e.2.Tidy) :
    lines plan.render.toList = plan.walk.map fun e => renderLine e.1 e.2 := by
  rw [Forest.render, String.toList_ofList, Forest.renderChars]
  apply lines_join
  intro l hl
  obtain ⟨e, he, rfl⟩ := List.mem_map.mp hl
  exact renderLine_is_line e.1 (h e he)

/-- Each step comes back from its own line, as deep as it was written. -/
theorem stepLines_render (mode : Mode) {plan : Forest} (h : ∀ e ∈ plan.walk, e.2.Tidy) :
    Forall₂ (fun e line => Line.read? mode (renderLine e.1 e.2) = some line ∧
      line.ComesBack e.1 e.2) plan.walk (stepLines mode plan.render) := by
  unfold stepLines
  rw [lines_render h]
  generalize plan.walk = es at h
  induction es with
  | nil => exact .nil
  | cons e es ih =>
    obtain ⟨line, hread, hline⟩ := read?_renderLine mode e.1 (h e List.mem_cons_self)
    rw [List.map_cons, List.filterMap_cons_some hread]
    exact .cons ⟨hread, hline⟩ (ih fun e' he' => h e' (List.mem_cons_of_mem _ he'))

/-- Lines whose levels climb like those of a plan keep their levels when they are nested. -/
theorem readBack_nested {mode : Mode} {most : Nat} {es : List (Nat × Step)} {ls : List Line}
    (hc : Forest.Climbs most (es.map Prod.fst))
    (h : Forall₂ (fun e line => Line.read? mode (renderLine e.1 e.2) = some line ∧
      line.ComesBack e.1 e.2) es ls) :
    Forall₂ (ReadBack mode) es (nested most ls) := by
  induction h generalizing most with
  | nil => exact .nil
  | @cons e line es ls hread _ ih =>
    obtain ⟨hread, hline⟩ := hread
    have hdepth : min line.level most = e.1 := by
      rw [hline.level]
      exact Nat.min_eq_left hc.1
    rw [nested, hdepth]
    exact .cons ⟨rfl, rfl, hline.operation, line, hread, rfl⟩ (ih hc.2)

theorem walk_reparse (mode : Mode) {plan : Forest} (h : ∀ e ∈ plan.walk, e.2.Tidy) :
    Forall₂ (ReadBack mode) plan.walk (Forest.parse mode plan.render).walk := by
  rw [walk_parse]
  apply readBack_nested _ (stepLines_render mode h)
  rw [Forest.walk_eq_preorder]
  exact Forest.climbs_levels plan 0

theorem alike_reparse {mode : Mode} {plan : Forest} {same : Step → Step → Prop}
    (h : ∀ e ∈ plan.walk, e.2.Tidy)
    (hs : ∀ e ∈ plan.walk, ∀ e', ReadBack mode e e' → same e.2 e'.2) :
    Forest.Alike same plan (Forest.parse mode plan.render) := by
  have hwalk := (List.forall₂_and_left _ _).mpr ⟨hs, walk_reparse mode h⟩
  rw [Forest.walk_eq_preorder, Forest.walk_eq_preorder] at hwalk
  apply Forest.alike_of_preorder
  apply hwalk.imp
  rintro e e' ⟨hsame, hread⟩
  exact ⟨hread.level.symm, hsame e' hread⟩

/-! ## Plans that are read from text -/

theorem mem_nested {most : Nat} {ls : List Line} {e : Nat × Step} (h : e ∈ nested most ls) :
    ∃ line ∈ ls, e.2 = { line.step with depth := e.1 } := by
  induction ls generalizing most with
  | nil => cases h
  | cons line rest ih =>
    rcases List.mem_cons.mp h with rfl | h
    · exact ⟨line, List.mem_cons_self, rfl⟩
    · obtain ⟨l, hl, he⟩ := ih h
      exact ⟨l, List.mem_cons_of_mem _ hl, he⟩

/-- A step of a plan is the step of some line, and as deep as it stands in the plan. -/
theorem exists_line_of_mem_walk {mode : Mode} {text : String} {e : Nat × Step}
    (h : e ∈ (Forest.parse mode text).walk) :
    ∃ line l, '\n' ∉ line ∧ Line.read? mode line = some l ∧
      e.2 = { l.step with depth := e.1 } := by
  rw [walk_parse] at h
  obtain ⟨l, hl, he⟩ := mem_nested h
  obtain ⟨line, hline, hread⟩ := List.mem_filterMap.mp hl
  exact ⟨line, l, feed_not_mem_of_mem_lines line hline, hread, he⟩

theorem tidy_of_mem_walk {mode : Mode} {text : String} :
    ∀ e ∈ (Forest.parse mode text).walk, e.2.Tidy := by
  intro e he
  obtain ⟨line, l, hfeed, hread, heq⟩ := exists_line_of_mem_walk he
  obtain ⟨htrimmed, hno, hclear⟩ := tidy_of_read? hread hfeed
  rw [heq]
  exact ⟨htrimmed, hno, hclear⟩

theorem unmeasured_of_mem_walk {text : String} :
    ∀ e ∈ (Forest.parse .estimated text).walk, e.2.Unmeasured := by
  intro e he
  obtain ⟨line, l, _, hread, heq⟩ := exists_line_of_mem_walk he
  obtain ⟨ht, hr, hl⟩ := unmeasured_of_read? hread
  rw [heq]
  exact ⟨ht, hr, hl⟩

/-- The operation and the depth of a step are as they were. -/
def Step.SameAs (step again : Step) : Prop :=
  again.operation = step.operation ∧ again.depth = step.depth

/-- A plan that is read, written and read again in the same way comes back in its own shape, each
step with its own depth. It comes back with its own operation too, unless nothing is shown of the
step but the count of its loops, and then the operation is all that its line shows. Where the
measurements are left out there is no such step. -/
theorem a_plan_comes_back_from_its_text (mode : Mode) (text : String) :
    let plan := Forest.parse mode text
    Forest.Alike (fun step again => again.depth = step.depth ∧
        again.operation.toList =
          if step.showsLoopsOnly then trim (step.operation.toList ++ step.metrics)
          else step.operation.toList)
      plan (Forest.parse mode plan.render) ∧
    (mode = .estimated → Forest.Alike Step.SameAs plan (Forest.parse mode plan.render)) := by
  intro plan
  have hdepth : ∀ e ∈ plan.walk, e.2.depth = e.1 := by
    intro e he
    obtain ⟨_, l, _, _, heq⟩ := exists_line_of_mem_walk he
    rw [heq]
  constructor
  · apply alike_reparse tidy_of_mem_walk
    intro e he e' hread
    exact ⟨hread.depth.trans (hdepth e he).symm, hread.operation⟩
  · rintro rfl
    apply alike_reparse tidy_of_mem_walk
    intro e he e' hread
    have hloops : e.2.showsLoopsOnly = false := by
      simp [Step.showsLoopsOnly, (unmeasured_of_mem_walk e he).actualLoops]
    have hoperation := hread.operation
    rw [Step.rereadOperation, if_neg (by simp [hloops])] at hoperation
    exact ⟨String.toList_injective hoperation, hread.depth.trans (hdepth e he).symm⟩

/-- The times of the only step have no second half and are not read, its count of loops is. -/
theorem a_lone_count_of_loops_joins_the_operation :
    let plan := Forest.parse .actual "-> A  (actual time=1 loops=3)"
    let again := Forest.parse .actual plan.render
    plan.steps.map Step.operation = ["A"] ∧ again.steps.map Step.operation = ["A  (loops=3)"] ∧
      ¬ Forest.Alike Step.SameAs plan again := by
  intro plan again
  have hplan : plan.steps.map Step.operation = ["A"] := by decide +kernel
  have hagain : again.steps.map Step.operation = ["A  (loops=3)"] := by decide +kernel
  refine ⟨hplan, hagain, fun h => ?_⟩
  have hsame := h.map_steps fun step again hs => hs.1.symm
  rw [hplan, hagain] at hsame
  exact absurd hsame (by decide)

end QueryReview.Plan
