-- Steps that are written and read again, with all their metrics. The metrics of a step are groups
-- behind its operation; what is read from them is written as they are, unless a count was measured
-- without a time.
import QueryReview.Proofs.Decimal.Reread
import QueryReview.Proofs.Plan.Ranges

namespace QueryReview.Plan

open Text Decimal

/-! ## The groups of a step -/

/-- The numbers that were estimated, as they are written. -/
def Step.estimate (step : Step) : Numbers :=
  { cost := step.cost.map (fixedNumeral 2), rows := step.estimatedRows.map countNumeral }

/-- The numbers that were measured, but for the times. -/
def Step.measured (step : Step) : Numbers :=
  { rows := step.actualRows.map countNumeral, loops := step.actualLoops.map digitChars }

/-- The parts as one group, or no group when there are none. -/
def asGroup (parts : List (List Char)) : List (List Char) :=
  if parts = [] then [] else [join [' '] parts]

/-- The groups that are written behind the operation. -/
def Step.groups (step : Step) : List (List Char) :=
  asGroup step.estimateParts ++ asGroup step.actualParts

theorem parts_estimate (step : Step) : step.estimate.parts = step.estimateParts := by
  unfold Step.estimate Step.estimateParts Numbers.parts
  cases step.cost <;> cases step.estimatedRows <;>
    simp [text_fixedNumeral, text_countNumeral]

theorem actualParts_of_timing_eq_none {step : Step} (h : step.timing = none) :
    step.actualParts = step.measured.parts := by
  unfold Step.actualParts Step.measured Numbers.parts
  cases step.actualRows <;> cases step.actualLoops <;> simp [h, text_countNumeral]

theorem actualParts_of_timing {step : Step} {t : Timing} (h : step.timing = some t) :
    step.actualParts
      = timesPart (fixedNumeral 3 t.first) (fixedNumeral 3 t.last) :: step.measured.parts := by
  unfold Step.actualParts Step.measured Numbers.parts timesPart rangeText
  cases step.actualRows <;> cases step.actualLoops <;>
    simp [h, text_fixedNumeral, text_countNumeral]

theorem metrics_eq (step : Step) :
    step.metrics
      = if step.groups = [] then [] else ' ' :: ' ' :: inParentheses step.groups := by
  unfold Step.metrics Step.groups asGroup group
  cases step.estimateParts <;> cases step.actualParts <;> simp [inParentheses, join]

theorem proper_estimate (step : Step) : step.estimate.Proper := by
  refine ⟨?_, ?_, by rintro ds ⟨⟩⟩
  · rintro n hn
    obtain ⟨x, _, rfl⟩ := Option.map_eq_some_iff.mp hn
    exact proper_fixedNumeral 2 x
  · rintro n hn
    obtain ⟨x, _, rfl⟩ := Option.map_eq_some_iff.mp hn
    exact proper_countNumeral x

theorem proper_measured (step : Step) : step.measured.Proper := by
  refine ⟨by rintro n ⟨⟩, ?_, ?_⟩
  · rintro n hn
    obtain ⟨x, _, rfl⟩ := Option.map_eq_some_iff.mp hn
    exact proper_countNumeral x
  · rintro ds hds
    obtain ⟨n, _, rfl⟩ := Option.map_eq_some_iff.mp hds
    exact ⟨digitChars_ne_nil n, fun c hc => isAnyDigit_of_isDigit (isDigit_digitChars n c hc)⟩

theorem plain_times (t : Timing) : (fixedNumeral 3 t.first).Plain ∧ (fixedNumeral 3 t.last).Plain :=
  ⟨plain_fixedNumeral (by decide) _, plain_fixedNumeral (by decide) _⟩

theorem isGroup_asGroup {parts : List (List Char)} (h : ∀ p ∈ parts, IsGroup p) :
    ∀ g ∈ asGroup parts, IsGroup g := by
  unfold asGroup
  split
  · rintro g ⟨⟩
  · rename_i hne
    exact List.forall_mem_singleton.mpr (isGroup_join hne h)

theorem isGroup_groups (step : Step) : ∀ g ∈ step.groups, IsGroup g := by
  refine List.forall_mem_append.mpr ⟨isGroup_asGroup ?_, isGroup_asGroup ?_⟩
  · rw [← parts_estimate]
    exact (proper_estimate step).isGroup
  · have hmeasured := (proper_measured step).isGroup
    cases ht : step.timing with
    | none =>
      rw [actualParts_of_timing_eq_none ht]
      exact hmeasured
    | some t =>
      obtain ⟨hfirst, hlast⟩ := plain_times t
      rw [actualParts_of_timing ht]
      exact List.forall_mem_cons.mpr ⟨isGroup_timesPart hfirst hlast, hmeasured⟩

/-! ## The line of a step -/

/-- What is read from the line of a step is read from its groups. -/
theorem exists_step_of_renderLine (mode : Mode) (level : Nat) {step : Step} (h : step.Tidy)
    (hl : step.showsLoopsOnly = false) :
    ∃ line, Line.read? mode (renderLine level step) = some line ∧
      line.step = (step.groups.foldl (Reading.addGroup mode)
        { step := { operation := step.operation } }).step := by
  have hmetrics := metrics_eq step
  rw [renderLine_eq]
  by_cases hnil : step.groups = []
  · rw [if_pos hnil] at hmetrics
    rw [hmetrics, List.append_nil, hnil]
    refine ⟨_, read?_of_cut? (cut?_arrow (arrow_not_mem_spaces _) _), ?_⟩
    rw [trim_cons_blank (by decide), h.trimmed, splitMetrics_of_clear h.clear, h.trimmed,
      String.ofList_toList]
    rfl
  · rw [if_neg hnil] at hmetrics
    have hopens : opensMetrics (inParentheses step.groups) = true := by
      rcases metrics_open hl with hempty | ⟨more, hmore, hopens⟩
      · rw [hempty] at hmetrics
        cases hmetrics
      · rw [hmetrics] at hmore
        simp only [List.cons.injEq, true_and] at hmore
        rw [hmore]
        exact hopens
    obtain ⟨line, hread, hstep⟩ :=
      read?_groups mode (arrow_not_mem_spaces _) h.clear (isGroup_groups step) hopens
    rw [h.trimmed, String.ofList_toList] at hstep
    rw [hmetrics]
    exact ⟨line, hread, hstep⟩

/-- A lone count of loops is read as a part of the operation. -/
theorem exists_step_of_lone_loops (mode : Mode) (level : Nat) {step : Step} (h : step.Tidy)
    (hl : step.showsLoopsOnly = true) :
    ∃ line, Line.read? mode (renderLine level step) = some line ∧
      line.step = { operation := String.ofList (trim (step.operation.toList ++ step.metrics)) } := by
  obtain ⟨more, hmore, hclear⟩ := metrics_of_showsLoopsOnly hl
  have hline := (h.clear.gap hclear).part (trim_isInfixOf _)
  rw [renderLine_eq]
  refine ⟨_, read?_of_cut? (cut?_arrow (arrow_not_mem_spaces _) _), ?_⟩
  rw [trim_cons_blank (by decide), hmore, splitMetrics_of_clear hline, trim_trim]
  rfl

/-! ## What the groups give -/

theorem foldl_asGroup_numbers {w : Numbers} (h : w.Proper) (mode : Mode) (before : Reading) :
    (asGroup w.parts).foldl (Reading.addGroup mode) before
      = if !before.seenEstimate && (w.cost.isSome || w.rows.isSome) then
          { before with
            step := { before.step with
              cost := w.cost.bind Numeral.value?
              estimatedRows := w.rows.bind Numeral.value? }
            seenEstimate := true }
        else before := by
  unfold asGroup
  split
  · rename_i hnil
    have hnone : w.cost = none ∧ w.rows = none := by
      simp only [Numbers.parts, List.append_eq_nil_iff, Option.toList_eq_nil_iff,
        Option.map_eq_none_iff] at hnil
      exact hnil.1
    rw [hnone.1, hnone.2, Option.isSome_none, Bool.or_false, Bool.and_false]
    rfl
  · exact addGroup_numbers h mode before

/-- What is known of a step before its measurements are read. -/
def Step.estimated (step : Step) : Reading :=
  { step := {
      operation := step.operation
      cost := step.estimate.cost.bind Numeral.value?
      estimatedRows := step.estimate.rows.bind Numeral.value? }
    seenEstimate := step.cost.isSome || step.estimatedRows.isSome }

theorem foldl_groups (mode : Mode) (step : Step) :
    step.groups.foldl (Reading.addGroup mode) { step := { operation := step.operation } }
      = (asGroup step.actualParts).foldl (Reading.addGroup mode) step.estimated := by
  rw [Step.groups, List.foldl_append, ← parts_estimate,
    foldl_asGroup_numbers (proper_estimate step)]
  congr 1
  unfold Step.estimated Step.estimate
  cases step.cost <;> cases step.estimatedRows <;> rfl

/-! ## Numbers that come back -/

/-- Each number of the step is finite, and the count of its loops is one that can be read. -/
structure Step.Finite (step : Step) : Prop where
  cost : ∀ x ∈ step.cost, x.isFinite = true
  estimatedRows : ∀ x ∈ step.estimatedRows, x.isFinite = true
  timing : ∀ t ∈ step.timing, t.first.isFinite = true ∧ t.last.isFinite = true
  actualRows : ∀ x ∈ step.actualRows, x.isFinite = true
  actualLoops : ∀ n ∈ step.actualLoops, n ≤ maxLoops

theorem isFinite_of_mem_value? {n? : Option Numeral} {x : Float}
    (h : x ∈ n?.bind Numeral.value?) : x.isFinite = true := by
  obtain ⟨n, _, hn⟩ := Option.bind_eq_some_iff.mp h
  exact isFinite_of_value? hn

/-- Only finite numbers are read. -/
theorem finite_withMetrics {step : Step} (h : step.Finite) (mode : Mode) (metrics : List Char) :
    (step.withMetrics mode metrics).Finite := by
  refine Step.withMetrics_induction h (fun s group hs => ?_) (fun _ s group hs => ?_) metrics
  · exact ⟨fun _ => isFinite_of_mem_value?, fun _ => isFinite_of_mem_value?, hs.timing,
      hs.actualRows, hs.actualLoops⟩
  · refine ⟨hs.cost, hs.estimatedRows, ?_, fun _ => isFinite_of_mem_value?, ?_⟩
    · intro t ht
      obtain ⟨⟨n, m⟩, _, ht⟩ := Option.bind_eq_some_iff.mp ht
      simp only [bind, pure, Option.bind_eq_some_iff] at ht
      obtain ⟨first, hfirst, last, hlast, ht⟩ := ht
      cases ht
      exact ⟨isFinite_of_value? hfirst, isFinite_of_value? hlast⟩
    · intro k hk
      obtain ⟨digits, _, hk⟩ := Option.bind_eq_some_iff.mp hk
      exact of_decide_eq_true (Option.filter_eq_some_iff.mp hk).2

theorem finite_of_read? {mode : Mode} {line : List Char} {l : Line}
    (h : Line.read? mode line = some l) : l.step.Finite := by
  obtain ⟨_, _, _, hstep⟩ := exists_of_read? h
  rw [hstep]
  refine finite_withMetrics ⟨?_, ?_, ?_, ?_, ?_⟩ mode _ <;> rintro x ⟨⟩

theorem reread_count {rows : Option Float} (h : ∀ x ∈ rows, x.isFinite = true) :
    (rows.map countNumeral).bind Numeral.value? = rows := by
  cases rows with
  | none => rfl
  | some x => exact value?_countNumeral (h x rfl)

theorem reread_fixed {places : ℕ} {cost : Option Float} (h : ∀ x ∈ cost, x.isFinite = true) :
    ((cost.map (fixedNumeral places)).bind Numeral.value?).map (fixed places)
      = cost.map (fixed places) := by
  cases cost with
  | none => rfl
  | some x =>
    obtain ⟨y, hy, _, heq⟩ := exists_value?_fixed places (h x rfl)
    rw [Option.map_some, Option.bind_some, hy, Option.map_some, heq, Option.map_some]

theorem loopCount_measured {step : Step} (h : step.Finite) :
    step.measured.loopCount = step.actualLoops := by
  unfold Step.measured Numbers.loopCount
  cases hl : step.actualLoops with
  | none => rfl
  | some n =>
    have hnatural : natural? (digitChars n) = some n := by
      rw [natural?, if_neg (by simp [digitChars_ne_nil]), digitsValue?_of_isDigit (isDigit_digitChars n),
        ofDigitChars_digitChars]
    have hle := h.actualLoops n hl
    rw [Option.map_some, Option.bind_some, hnatural, Option.filter_some, if_pos (decide_eq_true hle)]

/-- The steps are written with the same metrics, and the counts are the same. -/
structure Step.PrintsAs (step again : Step) : Prop where
  cost : again.cost.map (fixed 2) = step.cost.map (fixed 2)
  estimatedRows : again.estimatedRows = step.estimatedRows
  timing : again.timing.map (fun t => (fixed 3 t.first, fixed 3 t.last))
    = step.timing.map fun t => (fixed 3 t.first, fixed 3 t.last)
  actualRows : again.actualRows = step.actualRows
  actualLoops : again.actualLoops = step.actualLoops

/-- The step was timed, or nothing of it was measured. -/
def Step.Settled (step : Step) : Prop :=
  step.timing.isSome = true ∨ (step.actualRows = none ∧ step.actualLoops = none)

theorem estimateParts_eq {step again : Step}
    (hc : again.cost.map (fixed 2) = step.cost.map (fixed 2))
    (hr : again.estimatedRows = step.estimatedRows) : again.estimateParts = step.estimateParts := by
  have hparts : ∀ s : Step, s.estimateParts
      = ((s.cost.map (fixed 2)).map ("cost=".toList ++ ·)).toList
        ++ (s.estimatedRows.map fun x => "rows=".toList ++ count x).toList := by
    intro s
    rw [Option.map_map]
    rfl
  rw [hparts, hparts, hc, hr]

theorem Step.PrintsAs.metrics {step again : Step} (h : step.PrintsAs again) :
    again.metrics = step.metrics := by
  have hparts : ∀ s : Step, s.actualParts
      = ((s.timing.map fun t => (fixed 3 t.first, fixed 3 t.last)).map fun t =>
            "actual time=".toList ++ t.1 ++ "..".toList ++ t.2).toList
        ++ (s.actualRows.map fun x => "rows=".toList ++ count x).toList
        ++ (s.actualLoops.map fun n => "loops=".toList ++ digitChars n).toList := by
    intro s
    rw [Option.map_map]
    rfl
  have hactual : again.actualParts = step.actualParts := by
    rw [hparts, hparts, h.timing, h.actualRows, h.actualLoops]
  unfold Step.metrics
  rw [estimateParts_eq h.cost h.estimatedRows, hactual]

theorem printsAs_estimated {step : Step} (h : step.Finite) (ht : step.timing = none)
    (hm : step.actualRows = none ∧ step.actualLoops = none) : step.PrintsAs step.estimated.step :=
  ⟨reread_fixed h.cost, reread_count h.estimatedRows, by rw [ht]; rfl, hm.1.symm, hm.2.symm⟩

/-- The step that is read from the groups of a step. -/
def Step.reread (mode : Mode) (step : Step) : Step :=
  (step.groups.foldl (Reading.addGroup mode) { step := { operation := step.operation } }).step

theorem operation_reread (mode : Mode) (step : Step) :
    (step.reread mode).operation = step.operation := by
  have h := operation_withMetrics { operation := step.operation } mode
    (inParentheses step.groups)
  rwa [withMetrics_inParentheses _ mode (isGroup_groups step)] at h

theorem reread_of_timing_eq_none (mode : Mode) {step : Step} (ht : step.timing = none) :
    step.reread mode = if !step.estimated.seenEstimate && step.actualRows.isSome then
        { step.estimated.step with
          cost := none
          estimatedRows := (step.actualRows.map countNumeral).bind Numeral.value? }
      else step.estimated.step := by
  rw [Step.reread, foldl_groups, actualParts_of_timing_eq_none ht,
    foldl_asGroup_numbers (proper_measured step)]
  unfold Step.measured
  rw [Option.isSome_none, Bool.false_or, Option.isSome_map]
  split <;> rfl

theorem printsAs_reread {mode : Mode} {step : Step} (h : step.Finite) (hs : step.Settled)
    (hm : step.timing.isSome = true → mode = .actual) : step.PrintsAs (step.reread mode) := by
  cases ht : step.timing with
  | none =>
    have hmeasured := hs.resolve_left (by rw [ht]; exact Bool.false_ne_true)
    rw [reread_of_timing_eq_none mode ht, hmeasured.1, Option.isSome_none, Bool.and_false,
      if_neg Bool.false_ne_true]
    exact printsAs_estimated h ht hmeasured
  | some t =>
    obtain ⟨hfirst, hlast⟩ := plain_times t
    obtain ⟨first, hx, _, hfixed⟩ := exists_value?_fixed 3 (h.timing t ht).1
    obtain ⟨last, hy, _, hfixed'⟩ := exists_value?_fixed 3 (h.timing t ht).2
    cases hm (by rw [ht]; rfl)
    have hgroup : asGroup step.actualParts
        = [timesGroup (fixedNumeral 3 t.first) (fixedNumeral 3 t.last) step.measured] := by
      rw [actualParts_of_timing ht]
      rfl
    rw [Step.reread, foldl_groups, hgroup, List.foldl_cons, List.foldl_nil,
      addGroup_times hfirst hlast (proper_measured step), hx, hy]
    refine ⟨reread_fixed h.cost, reread_count h.estimatedRows, ?_, reread_count h.actualRows,
      loopCount_measured h⟩
    rw [ht]
    exact congrArg some (Prod.ext hfixed hfixed')

end QueryReview.Plan
