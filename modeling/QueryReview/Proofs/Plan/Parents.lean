-- Which step a step hangs below. In any plan it is the nearest step in front of it that is on a
-- smaller level, so the levels of a walk say how a plan is nested. In a plan that is read from text
-- the level of a step is its depth, and the indentation of a line is held against the depths of the
-- steps before it. A line that is indented too deep has a smaller depth than its indentation says,
-- so a line below it that is indented alike hangs below it, and not beside it.
import QueryReview.Proofs.Plan.Reading

namespace QueryReview.Plan

/-! ## Parents in a plan -/

/-- For each step in document order, the place of the step that it hangs below. The places are
counted from `next`, and the outermost steps hang below `above?`. -/
def Forest.parents (above? : Option Nat) (next : Nat) : Forest → List (Option Nat)
  | empty => []
  | grow _ children rest =>
    let inner := children.parents (some next) (next + 1)
    above? :: (inner ++ rest.parents above? (next + 1 + inner.length))

/-- Of the numbers in front of a place, the nearest one first, the place of the first that is
smaller than the bound. -/
def nearestBelow? (bound : Nat) : List Nat → Option Nat
  | [] => none
  | n :: before => if n < bound then some before.length else nearestBelow? bound before

/-- For each number the place of the nearest smaller one in front of it, where `before` is what
stands in front of them all. -/
def nestedBelow (before : List Nat) : List Nat → List (Option Nat)
  | [] => []
  | n :: ns => nearestBelow? n before :: nestedBelow (n :: before) ns

theorem nearestBelow?_append_of_le {bound : Nat} {near : List Nat} (h : ∀ n ∈ near, bound ≤ n)
    (before : List Nat) : nearestBelow? bound (near ++ before) = nearestBelow? bound before := by
  induction near with
  | nil => rfl
  | cons n near ih =>
    have hn : ¬ n < bound := Nat.not_lt.mpr (h n List.mem_cons_self)
    rw [List.cons_append, nearestBelow?, if_neg hn]
    exact ih fun m hm => h m (List.mem_cons_of_mem _ hm)

theorem nestedBelow_append (before ns ms : List Nat) :
    nestedBelow before (ns ++ ms)
      = nestedBelow before ns ++ nestedBelow (ns.reverse ++ before) ms := by
  induction ns generalizing before with
  | nil => rfl
  | cons n ns ih => simp [nestedBelow, ih]

theorem length_nestedBelow (before ns : List Nat) : (nestedBelow before ns).length = ns.length := by
  induction ns generalizing before with
  | nil => rfl
  | cons n ns ih => simp [nestedBelow, ih]

theorem getElem?_nestedBelow (before ns : List Nat) (k : Nat) :
    (nestedBelow before ns)[k]?
      = ns[k]?.map fun n => nearestBelow? n ((ns.take k).reverse ++ before) := by
  induction ns generalizing before k with
  | nil => rfl
  | cons n ns ih =>
    cases k with
    | zero => rfl
    | succ k => simp [nestedBelow, ih]

/-- A step hangs below the nearest step in front of it that is on a smaller level, if the outermost
steps do. -/
theorem Forest.parents_eq_nestedBelow (f : Forest) {before : List Nat} {above? : Option Nat}
    {level : Nat} (h : nearestBelow? level before = above?) :
    f.parents above? before.length = nestedBelow before (f.levels level) := by
  induction f generalizing before above? level with
  | empty => rfl
  | grow step children rest ihc ihr =>
    have hinner : nearestBelow? (level + 1) (level :: before) = some before.length := by
      simp [nearestBelow?]
    have hbeside : nearestBelow? level ((children.levels (level + 1)).reverse ++ level :: before)
        = above? := by
      rw [nearestBelow?_append_of_le, ← h]
      · simp [nearestBelow?]
      · intro n hn
        exact Nat.le_of_succ_le (Forest.le_of_mem_levels n (List.mem_reverse.mp hn))
    have hrest := ihr hbeside
    simp only [List.length_append, List.length_reverse, List.length_cons] at hrest
    have hchildren := ihc hinner
    rw [List.length_cons] at hchildren
    simp only [Forest.parents, Forest.levels_grow, nestedBelow, nestedBelow_append]
    rw [h, hchildren, length_nestedBelow, ← hrest]
    congr 3
    omega

/-! ## Parents in a plan that is read from text -/

/-- The levels of the lines with an arrow. -/
def arrowLevels (text : String) : List Nat := (arrowLines text).map indentLevel

theorem map_level_stepLines (mode : Mode) (text : String) :
    (stepLines mode text).map Line.level = arrowLevels text := by
  have h := map_read?_arrowLines mode text
  unfold arrowLevels
  generalize arrowLines text = ls at h
  generalize stepLines mode text = steps at h
  induction ls generalizing steps with
  | nil =>
    cases steps with
    | nil => rfl
    | cons s steps => cases h
  | cons l ls ih =>
    cases steps with
    | nil => cases h
    | cons s steps =>
      obtain ⟨hs, hrest⟩ := List.cons.inj h
      rw [List.map_cons, List.map_cons, read?_level hs, ih steps hrest]

theorem levels_parse (mode : Mode) (text : String) :
    (Forest.parse mode text).levels 0 = (nested 0 (stepLines mode text)).map Prod.fst := by
  rw [Forest.levels, ← Forest.walk_eq_preorder, walk_parse]

/-- The depth of a step is cut only where the step in front of it is the one it hangs below, so the
level of its line may stand for it. -/
theorem nearestBelow?_nested {ls : List Line} {line : Line} {k depth : Nat}
    (hl : ls[k]? = some line)
    (hd : ((nested 0 ls).map Prod.fst)[k]? = some depth) :
    nearestBelow? depth (((nested 0 ls).map Prod.fst).take k).reverse
      = nearestBelow? line.level (((nested 0 ls).map Prod.fst).take k).reverse := by
  obtain ⟨depth', hd', _, hsucc⟩ := nested_getElem? 0 k hl
  rw [List.getElem?_map, hd'] at hd
  obtain rfl : depth' = depth := Option.some.inj hd
  cases k with
  | zero => rfl
  | succ j =>
    have hj : j < (nested 0 ls).length :=
      Nat.lt_of_succ_lt (List.getElem?_eq_some_iff.mp hd').1
    have hbefore := List.getElem?_eq_getElem hj
    have hdepth := hsucc j _ rfl hbefore
    rw [List.take_add_one, List.getElem?_map, hbefore, Option.map_some, Option.toList_some,
      List.reverse_append, List.reverse_singleton, List.singleton_append]
    rcases Nat.le_total line.level ((nested 0 ls)[j].1 + 1) with hle | hge
    · rw [hdepth, Nat.min_eq_left hle]
    · rw [hdepth, Nat.min_eq_right hge, nearestBelow?, nearestBelow?, if_pos (Nat.lt_succ_self _),
        if_pos (Nat.lt_of_succ_le hge)]

theorem nested_le (most : Nat) (ls : List Line) :
    ∀ p ∈ (ls.map Line.level).zip ((nested most ls).map Prod.fst), p.2 ≤ p.1 := by
  induction ls generalizing most with
  | nil => simp [nested]
  | cons line rest ih =>
    intro p hp
    simp only [List.map_cons, nested, List.zip_cons_cons, List.mem_cons] at hp
    rcases hp with rfl | hp
    · exact Nat.min_le_left _ _
    · exact ih _ p hp

theorem nearestBelow?_congr {bound : Nat} {ps : List (Nat × Nat)}
    (h : ∀ p ∈ ps, p.1 < bound ↔ p.2 < bound) :
    nearestBelow? bound (ps.map Prod.fst) = nearestBelow? bound (ps.map Prod.snd) := by
  induction ps with
  | nil => rfl
  | cons p ps ih =>
    have hp := h p List.mem_cons_self
    have hps := ih fun q hq => h q (List.mem_cons_of_mem _ hq)
    simp only [List.map_cons, nearestBelow?, List.length_map, hp, hps]

section

variable {mode : Mode} {text : String} {k level : Nat}

theorem getElem?_parents (hk : (arrowLevels text)[k]? = some level) :
    ((Forest.parse mode text).parents none 0)[k]?
      = some (nearestBelow? level (((Forest.parse mode text).levels 0).take k).reverse) := by
  have hnone : nearestBelow? 0 [] = none := rfl
  have hparents : (Forest.parse mode text).parents none 0
      = nestedBelow [] ((Forest.parse mode text).levels 0) :=
    Forest.parents_eq_nestedBelow _ hnone
  rw [← map_level_stepLines mode, List.getElem?_map] at hk
  obtain ⟨line, hline, rfl⟩ := Option.map_eq_some_iff.mp hk
  obtain ⟨depth, hdepth, _⟩ := nested_getElem? 0 k hline
  have hfst : ((nested 0 (stepLines mode text)).map Prod.fst)[k]? = some depth := by
    rw [List.getElem?_map, hdepth]
    rfl
  rw [hparents, getElem?_nestedBelow, levels_parse, hfst, Option.map_some, List.append_nil,
    nearestBelow?_nested hline hfst]

theorem getElem?_parents_of_placed (hk : (arrowLevels text)[k]? = some level)
    (hplaced : ∀ p ∈ ((arrowLevels text).zip ((Forest.parse mode text).levels 0)).take k,
      level ≤ p.1 → level ≤ p.2) :
    ((Forest.parse mode text).parents none 0)[k]?
      = some (nearestBelow? level ((arrowLevels text).take k).reverse) := by
  have hlen : (arrowLevels text).length = ((Forest.parse mode text).levels 0).length := by
    rw [levels_parse, ← map_level_stepLines mode, List.length_map, List.length_map, nested_length]
  have hle : ∀ p ∈ (arrowLevels text).zip ((Forest.parse mode text).levels 0), p.2 ≤ p.1 := by
    rw [levels_parse, ← map_level_stepLines mode]
    exact nested_le 0 _
  rw [getElem?_parents hk]
  generalize (Forest.parse mode text).levels 0 = depths at *
  have hcongr : nearestBelow? level ((((arrowLevels text).zip depths).take k).reverse.map Prod.fst)
      = nearestBelow? level ((((arrowLevels text).zip depths).take k).reverse.map Prod.snd) := by
    apply nearestBelow?_congr
    intro p hp
    have hmem := List.mem_reverse.mp hp
    have hdepth := hle p (List.mem_of_mem_take hmem)
    have hdeep := hplaced p hmem
    constructor
    · intro hlt
      exact Nat.lt_of_le_of_lt hdepth hlt
    · intro hlt
      by_contra hge
      exact absurd (hdeep (Nat.not_lt.mp hge)) (Nat.not_le.mpr hlt)
  simp only [List.map_reverse, List.map_take, List.map_fst_zip (Nat.le_of_eq hlen),
    List.map_snd_zip (Nat.le_of_eq hlen.symm)] at hcongr
  rw [hcongr]

/-- A step hangs below the nearest step in front of it that is placed on a smaller level than its
own line is indented to. Let every line in front of it that is indented as deep be placed as deep.
Then it hangs below the nearest line in front of it that is indented less, and beside every line of
the same indentation, unless one between the two is indented less. -/
theorem a_step_hangs_below_the_nearest_line_indented_less
    (hk : (arrowLevels text)[k]? = some level) :
    let plan := Forest.parse mode text
    (plan.parents none 0)[k]? = some (nearestBelow? level ((plan.levels 0).take k).reverse) ∧
    ((∀ p ∈ ((arrowLevels text).zip (plan.levels 0)).take k, level ≤ p.1 → level ≤ p.2) →
      (plan.parents none 0)[k]? = some (nearestBelow? level ((arrowLevels text).take k).reverse) ∧
      ∀ i < k, (arrowLevels text)[i]? = some level →
        (∀ between ∈ ((arrowLevels text).take k).drop i, level ≤ between) →
        (plan.parents none 0)[i]? = (plan.parents none 0)[k]?) := by
  intro plan
  refine ⟨getElem?_parents hk, fun hplaced => ?_⟩
  have hparent := getElem?_parents_of_placed hk hplaced
  refine ⟨hparent, ?_⟩
  intro i hi hlevel hbetween
  have htake : ((arrowLevels text).take k).take i = (arrowLevels text).take i := by
    rw [List.take_take, Nat.min_eq_left (Nat.le_of_lt hi)]
  have hplaced' : ∀ p ∈ ((arrowLevels text).zip (plan.levels 0)).take i,
      level ≤ p.1 → level ≤ p.2 := by
    intro p hp
    apply hplaced p
    exact (List.take_subset_take_left _ (Nat.le_of_lt hi)) hp
  rw [getElem?_parents_of_placed hlevel hplaced', hparent,
    ← List.take_append_drop i ((arrowLevels text).take k), htake, List.reverse_append,
    nearestBelow?_append_of_le]
  intro n hn
  exact hbetween n (List.mem_reverse.mp hn)

end

/-- The last of three lines hangs below the first, although the one between is indented too deep. -/
theorem a_line_behind_a_jump_hangs_below_its_own_parent :
    let text := "-> A\n        -> B\n    -> C"
    (arrowLevels text)[2]? = some 1 ∧
      ((Forest.parse .estimated text).parents none 0)[2]? = some (some 0) := by
  intro text
  have hlevels : arrowLevels text = [0, 2, 1] := by decide +kernel
  have hdepths : (Forest.parse .estimated text).levels 0 = [0, 1, 1] := by decide +kernel
  have hlevel : (arrowLevels text)[2]? = some 1 := by
    rw [hlevels]
    rfl
  have hplaced : ∀ p ∈ ((arrowLevels text).zip ((Forest.parse .estimated text).levels 0)).take 2,
      1 ≤ p.1 → 1 ≤ p.2 := by
    rw [hlevels, hdepths]
    decide
  refine ⟨hlevel, ?_⟩
  rw [((a_step_hangs_below_the_nearest_line_indented_less hlevel).2 hplaced).1, hlevels]
  rfl

/-- Two lines with the same indentation, and none that is indented less: the second hangs below the
first all the same. -/
theorem an_indented_line_hangs_below_its_equal :
    let text := "    -> A\n    -> B"
    arrowLevels text = [1, 1] ∧ nearestBelow? 1 [1] = none ∧
      (Forest.parse .estimated text).parents none 0 = [none, some 0] := by
  decide +kernel

end QueryReview.Plan
