-- The laws of reading a plan from text. Each line with an arrow gives one step, all other lines
-- give nothing, and the steps keep the order of their lines.
import QueryReview.Proofs.Plan.Outline
import QueryReview.Proofs.Text.Blank
import QueryReview.Proofs.Text.Find

namespace QueryReview.Plan

open Text

/-! ## One line -/

/-- There is a step on the line. -/
def hasArrow (line : List Char) : Bool := occursIn "->".toList line

theorem read?_isSome (mode : Mode) (line : List Char) :
    (Line.read? mode line).isSome = hasArrow line := by
  unfold Line.read? hasArrow
  rw [Option.isSome_map, isSome_cut?]

theorem read?_eq_none {mode : Mode} {line : List Char} (h : hasArrow line = false) :
    Line.read? mode line = none := by
  rw [← read?_isSome mode] at h
  simpa using h

theorem read?_level {mode : Mode} {line : List Char} {l : Line}
    (h : Line.read? mode line = some l) : l.level = indentLevel line := by
  unfold Line.read? at h
  obtain ⟨⟨_, behind⟩, _, rfl⟩ := Option.map_eq_some_iff.mp h
  rfl

theorem indentLevel_append_return (line : List Char) :
    indentLevel (line ++ ['\r']) = indentLevel line := by
  unfold indentLevel
  congr 2
  induction line with
  | nil => rfl
  | cons c cs ih => simp [List.takeWhile_cons, ih]

/-- A carriage return at the end of a line means nothing. -/
theorem read?_append_return (mode : Mode) (line : List Char) :
    Line.read? mode (line ++ ['\r']) = Line.read? mode line := by
  have hblank : isBlank '\r' = true := by decide
  unfold Line.read?
  rw [cut?_append_of_not_mem (by decide) (by decide)]
  cases cut? "->".toList line with
  | none => rfl
  | some p =>
    simp only [Option.map_some, Option.some.injEq]
    rw [trim_append_blank _ hblank, indentLevel_append_return]

/-! ## All lines -/

/-- The lines of a text that have an arrow. -/
def arrowLines (text : String) : List (List Char) := (lines text.toList).filter hasArrow

/-- The steps on the lines of a text, in order. -/
def stepLines (mode : Mode) (text : String) : List Line :=
  (lines text.toList).filterMap (Line.read? mode)

theorem map_read?_arrowLines (mode : Mode) (text : String) :
    (arrowLines text).map (Line.read? mode) = (stepLines mode text).map some := by
  unfold arrowLines stepLines
  induction lines text.toList with
  | nil => rfl
  | cons line rest ih =>
    have hs := read?_isSome mode line
    cases hr : Line.read? mode line with
    | none =>
      rw [hr] at hs
      simp [← hs, hr, ih]
    | some l =>
      rw [hr] at hs
      simp [← hs, hr, ih]

theorem walk_parse (mode : Mode) (text : String) :
    (Forest.parse mode text).walk = nested 0 (stepLines mode text) := by
  rw [Forest.walk_eq_preorder]
  exact assemble_preorder _

theorem parse_congr {mode : Mode} {a b : String} (h : stepLines mode a = stepLines mode b) :
    Forest.parse mode a = Forest.parse mode b := by
  unfold stepLines at h
  unfold Forest.parse
  rw [h]

/-- The step of each line, by the place of the line: it is as deep as the line is indented, but at
most one deeper than the step before it. -/
theorem nested_getElem? {ls : List Line} {line : Line} (most k : Nat) (h : ls[k]? = some line) :
    ∃ depth, (nested most ls)[k]? = some (depth, { line.step with depth }) ∧
      (k = 0 → depth = min line.level most) ∧
      ∀ j before, k = j + 1 → (nested most ls)[j]? = some before →
        depth = min line.level (before.1 + 1) := by
  induction ls generalizing most k with
  | nil => cases h
  | cons first rest ih =>
    cases k with
    | zero =>
      cases h
      exact ⟨_, rfl, fun _ => rfl, fun j _ hj => by omega⟩
    | succ k =>
      obtain ⟨depth, hd, hzero, hsucc⟩ := ih (min first.level most + 1) k h
      refine ⟨depth, hd, fun hk => by omega, ?_⟩
      intro j before hj hb
      cases j with
      | zero =>
        cases hb
        exact hzero (by omega)
      | succ i => exact hsucc i before (by omega) hb

/-- The steps of a plan are those of the lines with an arrow, one for each, in their order: each
has what is read from its own line, and its depth is its level in the plan. The first one is a
root, and each other one is as deep as its line is indented, but at most one deeper than the one
before it. A line without an arrow, between any two lines or at the end, changes nothing. -/
theorem the_steps_of_a_plan_are_its_arrow_lines (mode : Mode) (text : String) :
    let plan := Forest.parse mode text
    plan.walk = plan.preorder 0 ∧
    plan.stepCount = (arrowLines text).length ∧
    (∀ k line, (arrowLines text)[k]? = some line →
      ∃ read depth, Line.read? mode line = some read ∧
        plan.walk[k]? = some (depth, { read.step with depth }) ∧
        (k = 0 → depth = 0) ∧
        ∀ j before, k = j + 1 → plan.walk[j]? = some before →
          depth = min (indentLevel line) (before.1 + 1)) ∧
    (∀ above line below : String, text = above ++ below → Ended above.toList →
      '\n' ∉ line.toList → hasArrow line.toList = false →
        Forest.parse mode (above ++ line ++ "\n" ++ below) = plan) ∧
    (∀ line : String, '\n' ∉ line.toList → hasArrow line.toList = false →
      Forest.parse mode (text ++ "\n" ++ line) = plan) := by
  have hmap := map_read?_arrowLines mode text
  refine ⟨Forest.walk_eq_preorder _, ?_, ?_, ?_, ?_⟩
  · unfold Forest.stepCount
    rw [walk_parse, nested_length, ← List.length_map some, ← hmap, List.length_map]
  · intro k line hk
    have hread : (stepLines mode text)[k]?.map some = some (Line.read? mode line) := by
      rw [← List.getElem?_map, ← hmap, List.getElem?_map, hk]
      rfl
    obtain ⟨read, hls, hr⟩ := Option.map_eq_some_iff.mp hread
    obtain ⟨depth, hd, hzero, hsucc⟩ := nested_getElem? 0 k hls
    rw [← read?_level hr.symm, walk_parse]
    exact ⟨read, depth, hr.symm, hd, fun hk => by rw [hzero hk, Nat.min_zero], hsucc⟩
  · rintro above line below rfl ha hf harrow
    apply parse_congr
    unfold stepLines
    simp only [String.toList_append, List.append_assoc]
    have h := filterMap_lines_insert (read?_append_return mode) ha hf (read?_eq_none harrow)
      below.toList
    simpa using h
  · intro line hf harrow
    apply parse_congr
    unfold stepLines
    simp only [String.toList_append, List.append_assoc]
    exact filterMap_lines_insert_last (read?_append_return mode) (read?_eq_none (by decide)) hf
      (read?_eq_none harrow) text.toList

end QueryReview.Plan
