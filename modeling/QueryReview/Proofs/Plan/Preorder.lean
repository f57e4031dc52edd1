-- The order of a plan by recursion on the plan itself. The walk that keeps a stack of what is
-- still to be visited gives the same steps, in the same order, with the same levels.
import QueryReview.Plan.Forest

namespace QueryReview.Plan.Forest

/-- The steps with their levels, where the outermost ones are on the given level: each step in
front of what is below it, and that in front of what is beside it. -/
def preorder (level : Nat) : Forest → List (Nat × Step)
  | empty => []
  | grow step children rest =>
    (level, step) :: (children.preorder (level + 1) ++ rest.preorder level)

/-- The walk visits the forests of the stack from the top on, each in its own order. -/
theorem walkStack_eq_flatMap_preorder (stack : List (Nat × Forest)) :
    walkStack stack = stack.flatMap fun p => p.2.preorder p.1 := by
  fun_induction walkStack stack with
  | case1 => rfl
  | case2 _ stack ih =>
    rw [ih]
    rfl
  | case3 level step children rest stack ih =>
    rw [ih]
    simp [preorder]

theorem walk_eq_preorder (f : Forest) : f.walk = f.preorder 0 := by
  simp [walk, walkStack_eq_flatMap_preorder]

/-! ## Levels -/

/-- The levels of the steps in document order, where the outermost ones are on the given level. -/
def levels (level : Nat) (f : Forest) : List Nat := (f.preorder level).map Prod.fst

theorem levels_grow (level : Nat) (step : Step) (children rest : Forest) :
    (grow step children rest).levels level
      = level :: (children.levels (level + 1) ++ rest.levels level) := by
  simp [levels, preorder]

theorem le_of_mem_levels {f : Forest} {level : Nat} : ∀ n ∈ f.levels level, level ≤ n := by
  induction f generalizing level with
  | empty => simp [levels, preorder]
  | grow step children rest ihc ihr =>
    intro n hn
    simp only [levels_grow, List.mem_cons, List.mem_append] at hn
    rcases hn with rfl | hn | hn
    · exact Nat.le_refl _
    · exact Nat.le_of_succ_le (ihc n hn)
    · exact ihr n hn

/-- The first number is at most `most`, and each other one is at most one more than the number in
front of it. -/
def Climbs (most : Nat) : List Nat → Prop
  | [] => True
  | n :: ns => n ≤ most ∧ Climbs (n + 1) ns

theorem Climbs.of_le {most more : Nat} {ns : List Nat} (h : Climbs most ns) (hle : most ≤ more) :
    Climbs more ns := by
  cases ns with
  | nil => trivial
  | cons n ns => exact ⟨Nat.le_trans h.1 hle, h.2⟩

/-- Numbers may be followed by others that start no higher than all of them. -/
theorem Climbs.append {most level : Nat} {ns ms : List Nat} (h : Climbs most ns)
    (hm : Climbs level ms) (hle : level ≤ most) (hn : ∀ n ∈ ns, level ≤ n) :
    Climbs most (ns ++ ms) := by
  induction ns generalizing most with
  | nil => exact hm.of_le hle
  | cons n ns ih =>
    have hhead := hn n List.mem_cons_self
    refine ⟨h.1, ih h.2 (Nat.le_succ_of_le hhead) ?_⟩
    exact fun m hm => hn m (List.mem_cons_of_mem _ hm)

/-- A step is at most one level below the step in front of it. -/
theorem climbs_levels (f : Forest) (level : Nat) : Climbs level (f.levels level) := by
  induction f generalizing level with
  | empty => trivial
  | grow step children rest ihc ihr =>
    rw [levels_grow]
    refine ⟨Nat.le_refl _, (ihc (level + 1)).append (ihr level) (Nat.le_succ _) ?_⟩
    exact fun n hn => Nat.le_of_succ_le (le_of_mem_levels n hn)

end QueryReview.Plan.Forest
