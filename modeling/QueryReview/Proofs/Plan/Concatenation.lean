-- Plans one below the other. The steps of a text come first, whatever follows it, and a text whose
-- first step is not indented is read as if nothing stood in front of it.
import Mathlib.Data.Option.Basic
import QueryReview.Proofs.Plan.Parents
import QueryReview.Proofs.Plan.Shape

namespace QueryReview.Plan

open Text

/-! ## Forests side by side -/

/-- The roots in order, each with all that is below it. -/
def Forest.roots : Forest → List (Step × Forest)
  | empty => []
  | grow step children rest => (step, children) :: rest.roots

/-- The roots of the first plan, and then those of the second. -/
def Forest.beside : Forest → Forest → Forest
  | empty, g => g
  | grow step children rest, g => grow step children (rest.beside g)

theorem Forest.roots_beside (f g : Forest) : (f.beside g).roots = f.roots ++ g.roots := by
  induction f with
  | empty => rfl
  | grow step children rest _ ih => rw [beside, roots, roots, ih, List.cons_append]

theorem Forest.preorder_beside (f g : Forest) (level : Nat) :
    (f.beside g).preorder level = f.preorder level ++ g.preorder level := by
  induction f with
  | empty => rfl
  | grow step children rest _ ih => simp [beside, preorder, ih]

theorem Forest.walk_inj {f g : Forest} : f.walk = g.walk ↔ f = g := by
  rw [walk_eq_preorder, walk_eq_preorder]
  exact ⟨eq_of_preorder 0, congrArg (preorder 0)⟩

/-! ## Lines behind other lines -/

/-- How deep a step may be behind the lines. -/
def deepestBehind (most : Nat) : List Line → Nat
  | [] => most
  | line :: rest => deepestBehind (min line.level most + 1) rest

theorem deepestBehind_pos {most : Nat} (h : 0 < most) (ls : List Line) :
    0 < deepestBehind most ls := by
  induction ls generalizing most with
  | nil => exact h
  | cons line rest ih => exact ih (Nat.succ_pos _)

theorem deepestBehind_eq_zero_iff {ls : List Line} : deepestBehind 0 ls = 0 ↔ ls = [] := by
  cases ls with
  | nil => simp [deepestBehind]
  | cons line rest =>
    have hpos := deepestBehind_pos (Nat.succ_pos (min line.level 0)) rest
    simp only [deepestBehind, reduceCtorEq, iff_false]
    exact Nat.ne_of_gt hpos

theorem nested_append (most : Nat) (above below : List Line) :
    nested most (above ++ below)
      = nested most above ++ nested (deepestBehind most above) below := by
  induction above generalizing most with
  | nil => rfl
  | cons line rest ih => simp only [List.cons_append, nested, deepestBehind, ih]

/-- Only the first of the lines can tell how deep a step may be. -/
theorem nested_eq_nested_zero_iff {most : Nat} {ls : List Line} :
    nested most ls = nested 0 ls ↔ most = 0 ∨ ∀ line ∈ ls.head?, line.level = 0 := by
  cases ls with
  | nil => simp [nested]
  | cons line rest =>
    constructor
    · intro h
      have hdepth : min line.level most = 0 := by
        have hhead := congrArg Prod.fst (List.cons.inj h).1
        rwa [Nat.min_zero] at hhead
      rcases Nat.min_eq_zero_iff.mp hdepth with hlevel | hmost
      · right
        rintro _ ⟨⟩
        exact hlevel
      · exact Or.inl hmost
    · rintro (rfl | h)
      · rfl
      · have hlevel : line.level = 0 := h line rfl
        simp [nested, hlevel]

/-! ## Texts -/

/-- A line feed between two texts ends the last line of the first one and nothing else. -/
theorem stepLines_append_feed (mode : Mode) (above below : String) :
    stepLines mode (above ++ "\n" ++ below) = stepLines mode above ++ stepLines mode below := by
  have htext : (above ++ "\n" ++ below).toList = above.toList ++ '\n' :: below.toList := by
    simp [String.toList_append]
  unfold stepLines
  rw [htext, lines_append_feed, List.filterMap_append,
    filterMap_lines_append_feed (read?_append_return mode) (read?_eq_none (by decide))]

theorem stepLines_eq_nil_iff {mode : Mode} {text : String} :
    stepLines mode text = [] ↔ arrowLines text = [] := by
  rw [← List.map_eq_nil_iff (f := some), ← map_read?_arrowLines, List.map_eq_nil_iff]

theorem head?_level_stepLines (mode : Mode) (text : String) :
    (∀ line ∈ (stepLines mode text).head?, line.level = 0) ↔
      ∀ line ∈ (arrowLines text).head?, indentLevel line = 0 := by
  have hhead : (stepLines mode text).head?.map Line.level
      = (arrowLines text).head?.map indentLevel := by
    rw [← List.head?_map, ← List.head?_map, map_level_stepLines, arrowLevels]
  rw [← Option.forall_mem_map (f := Line.level) (p := (· = 0)), hhead, Option.forall_mem_map]

theorem walk_parse_append (mode : Mode) (above below : String) :
    (Forest.parse mode (above ++ "\n" ++ below)).walk
      = (Forest.parse mode above).walk
        ++ nested (deepestBehind 0 (stepLines mode above)) (stepLines mode below) := by
  rw [walk_parse, walk_parse, stepLines_append_feed, nested_append]

/-- The text below is read as it is by itself just when there is no step above it, or its own first
step is not indented by a whole level. -/
theorem parse_append_eq_beside_iff {mode : Mode} {above below : String} :
    Forest.parse mode (above ++ "\n" ++ below)
        = (Forest.parse mode above).beside (Forest.parse mode below) ↔
      arrowLines above = [] ∨ ∀ line ∈ (arrowLines below).head?, indentLevel line = 0 := by
  have hbeside : ((Forest.parse mode above).beside (Forest.parse mode below)).walk
      = (Forest.parse mode above).walk ++ nested 0 (stepLines mode below) := by
    rw [Forest.walk_eq_preorder, Forest.preorder_beside, ← Forest.walk_eq_preorder,
      ← Forest.walk_eq_preorder, walk_parse mode below]
  rw [← Forest.walk_inj, walk_parse_append, hbeside, List.append_cancel_left_eq,
    nested_eq_nested_zero_iff, deepestBehind_eq_zero_iff, stepLines_eq_nil_iff,
    head?_level_stepLines]

/-- An indented step hangs below the last step above it, and is no root of the plan. -/
example :
    ((Forest.parse .estimated "-> A\n    -> B").walk.map Prod.fst,
      (Forest.parse .estimated "    -> B").walk.map Prod.fst) = ([0, 1], [0]) := by
  decide +kernel

/-- Let no line of the second text have an arrow, or let the first one that does have fewer than
four spaces in front. Then the roots of the two texts, one below the other, are those of the first
text and then those of the second, with all that is below them and all that was read about each
step. Whatever the second text is, the steps of the first one stand in front, each on the level
and with the depth that it has without the second text. -/
theorem plans_one_below_the_other_are_one_plan (mode : Mode) (above below : String) :
    ((∀ line ∈ (arrowLines below).head?, (line.takeWhile (· == ' ')).length < 4) →
      (Forest.parse mode (above ++ "\n" ++ below)).roots
        = (Forest.parse mode above).roots ++ (Forest.parse mode below).roots) ∧
    (Forest.parse mode above).walk <+: (Forest.parse mode (above ++ "\n" ++ below)).walk := by
  constructor
  · intro hspaces
    have hlevel : ∀ line ∈ (arrowLines below).head?, indentLevel line = 0 := by
      intro line hline
      exact Nat.div_eq_of_lt (hspaces line hline)
    rw [parse_append_eq_beside_iff.mpr (Or.inr hlevel), Forest.roots_beside]
  · rw [walk_parse_append]
    exact List.prefix_append _ _

/-- The first text ends in the middle of a line ending, and the second one starts with a line
without a step, and with a step that is indented by less than a level. -/
theorem a_plan_that_starts_with_a_heading_follows_another :
    let above := "-> A\n    -> B\r"
    let below := "next\n   -> C\n    -> D"
    (∀ line ∈ (arrowLines below).head?, (line.takeWhile (· == ' ')).length < 4) ∧
    ((Forest.parse .estimated (above ++ "\n" ++ below)).roots.map fun root =>
        (root.1.operation, root.2.steps.map Step.operation))
      = [("A", ["B"]), ("C", ["D"])] := by
  intro above below
  have hspaces : ∀ line ∈ (arrowLines below).head?, (line.takeWhile (· == ' ')).length < 4 := by
    decide +kernel
  refine ⟨hspaces, ?_⟩
  rw [(plans_one_below_the_other_are_one_plan .estimated above below).1 hspaces]
  decide +kernel

end QueryReview.Plan
