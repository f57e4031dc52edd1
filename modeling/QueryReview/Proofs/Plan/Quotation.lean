-- Operations that quote what looks like metrics. The operation of a line ends where the first group
-- opens, so the trailing group counts only behind an operation in which none opens.
import QueryReview.Plan.Outline
import QueryReview.Proofs.Plan.Groups

namespace QueryReview.Plan

open Text Decimal

/-- On no line does a group open in the operation that is read. -/
theorem clear_operation {mode : Mode} {line : List Char} {l : Line}
    (h : Line.read? mode line = some l) : Clear l.step.operation.toList := by
  obtain ⟨_, behind, _, hstep⟩ := exists_of_read? h
  rw [hstep, operation_withMetrics, String.toList_ofList]
  exact (clear_splitMetrics _).part (trim_isInfixOf _)

/-- The line of an operation with a cost and a count of rows gives a step. It has the operation as it
stands exactly when no group opens in it, and then the cost and the rows of the trailing group. -/
theorem an_operation_is_whole_exactly_when_no_group_opens_in_it (mode : Mode)
    {indent operation cost rows : List Char} {x y : Float} (hi : ∀ c ∈ indent, isBlank c = true)
    (ht : trim operation = operation) (hc : float? cost = some x) (hr : float? rows = some y) :
    ∃ l, Line.read? mode (indent ++ "-> ".toList ++ operation ++ "  (cost=".toList ++ cost
        ++ " rows=".toList ++ rows ++ ")".toList) = some l ∧
      (l.step.operation.toList = operation ↔ Clear operation) ∧
      (Clear operation → l.step.cost = some x ∧ l.step.estimatedRows = some y) := by
  have hindent : '-' ∉ indent := fun hmem => absurd (hi _ hmem) (by decide)
  obtain ⟨n, hn, rfl, hx⟩ := exists_numeral_of_float? hc
  obtain ⟨m, hm, rfl, hy⟩ := exists_numeral_of_float? hr
  have hproper : (Numbers.mk (some n) (some m) none).Proper :=
    ⟨by rintro k ⟨⟩; exact hn, by rintro k ⟨⟩; exact hm, by rintro ds ⟨⟩⟩
  have hline : indent ++ "-> ".toList ++ operation ++ "  (cost=".toList ++ n.text
        ++ " rows=".toList ++ m.text ++ ")".toList
      = indent ++ ("-> ".toList ++ (operation ++ ' ' :: ' ' :: inParentheses
          [join [' '] (Numbers.mk (some n) (some m) none).parts])) := by
    have hparts : (Numbers.mk (some n) (some m) none).parts
        = ["cost=".toList ++ n.text, "rows=".toList ++ m.text] := rfl
    have hopen : "  (cost=".toList = ' ' :: ' ' :: '(' :: "cost=".toList := rfl
    have hrows : " rows=".toList = ' ' :: "rows=".toList := rfl
    have hclose : ")".toList = [')'] := rfl
    rw [hparts, hopen, hrows, hclose]
    generalize "-> ".toList = arrow, "cost=".toList = named, "rows=".toList = rows
    simp [inParentheses, join]
  have hgroup : IsGroup (join [' '] (Numbers.mk (some n) (some m) none).parts) :=
    isGroup_join (List.cons_ne_nil _ _) hproper.isGroup
  rw [hline]
  obtain ⟨l, hl⟩ : ∃ l, Line.read? mode (indent ++ ("-> ".toList ++ (operation ++ ' ' :: ' ' ::
      inParentheses [join [' '] (Numbers.mk (some n) (some m) none).parts]))) = some l :=
    ⟨_, read?_of_cut? (cut?_arrow hindent _)⟩
  have hstep : Clear operation →
      l.step = { operation := String.ofList operation, cost := some x, estimatedRows := some y } := by
    intro hclear
    obtain ⟨l', hl', hstep⟩ :=
      read?_groups mode hindent hclear (List.forall_mem_singleton.mpr hgroup) rfl
    rw [hl] at hl'
    cases hl'
    rw [ht, List.foldl_cons, List.foldl_nil, addGroup_numbers hproper, Option.bind_some,
      Option.bind_some, hx, hy] at hstep
    exact hstep
  -- What is read has no opener in it, so it is not an operation that has one.
  refine ⟨l, hl, ⟨fun h => h ▸ clear_operation hl, fun hclear => ?_⟩, fun hclear => ?_⟩
  · rw [hstep hclear, String.toList_ofList]
  · rw [hstep hclear]
    exact ⟨rfl, rfl⟩

theorem a_condition_with_parentheses_is_whole :
    ∃ l, Line.read? .actual "    -> Filter: (t.a = '(1)')  (cost=5.00 rows=2)".toList = some l ∧
      l.step.operation = "Filter: (t.a = '(1)')" ∧ l.step.cost = some 5 ∧
      l.step.estimatedRows = some 2 := by
  have hclear : Clear "Filter: (t.a = '(1)')".toList := by
    unfold Clear
    decide
  have hindent : ∀ c ∈ "    ".toList, isBlank c = true := List.all_eq_true.mp (by decide)
  have hcost : float? "5.00".toList = some 5 := by decide +kernel
  have hrows : float? "2".toList = some 2 := by decide +kernel
  obtain ⟨l, hl, hoperation, hmetrics⟩ :=
    @an_operation_is_whole_exactly_when_no_group_opens_in_it .actual "    ".toList
      "Filter: (t.a = '(1)')".toList "5.00".toList "2".toList 5 2 hindent (by decide) hcost hrows
  exact ⟨l, hl, String.toList_injective (hoperation.mpr hclear), hmetrics hclear⟩

/-- The constant is taken for the estimate, and the rest of the line for more metrics. -/
theorem a_quoted_cost_is_taken_for_the_estimate :
    let line := "-> Filter: (t.a = '(cost=0)')  (cost=5.00 rows=2)"
    (Forest.parse .estimated line).steps.map (fun s => (s.operation, s.cost, s.estimatedRows))
        = [("Filter: (t.a = '", some 0, none)] ∧
      (Forest.parse .estimated line).steps.map (fun s => (s.operation, s.cost, s.estimatedRows))
        ≠ [("Filter: (t.a = '(cost=0)')", some 5, some 2)] := by
  decide +kernel

end QueryReview.Plan
