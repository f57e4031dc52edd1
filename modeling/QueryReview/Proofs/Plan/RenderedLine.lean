-- What is read back from the line of a step: its level, and its operation. The metrics of a step of
-- which nothing is shown but the count of its loops are read as a part of the operation.
import QueryReview.Proofs.Plan.Metrics
import QueryReview.Proofs.Text.Blank

namespace QueryReview.Plan

open Text

/-! ## The line -/

/-- What holds of a step without metrics holds with them, when no group makes it false. -/
theorem Step.withMetrics_induction {P : Step → Prop} {step : Step} {mode : Mode} (h : P step)
    (he : ∀ s group, P s → P (s.withEstimate group))
    (ha : mode = .actual → ∀ s group, P s → P (s.withActual group)) (metrics : List Char) :
    P (step.withMetrics mode metrics) := by
  have hgroups : ∀ (groups : List (List Char)) (r : Reading), P r.step →
      P (groups.foldl (Reading.addGroup mode) r).step := by
    intro groups
    induction groups with
    | nil => exact fun r hr => hr
    | cons group groups ih =>
      intro r hr
      apply ih
      unfold Reading.addGroup
      split
      · split
        · rename_i hactual
          cases mode with
          | estimated => cases hactual
          | actual => exact ha rfl _ _ hr
        · exact hr
      · split
        · exact he _ _ hr
        · exact hr
  exact hgroups _ _ h

theorem operation_withMetrics (step : Step) (mode : Mode) (metrics : List Char) :
    (step.withMetrics mode metrics).operation = step.operation :=
  Step.withMetrics_induction (P := fun s => s.operation = step.operation) rfl
    (fun _ _ h => h) (fun _ _ _ h => h) metrics

/-- Nothing of the step was measured. -/
structure Step.Unmeasured (step : Step) : Prop where
  timing : step.timing = none
  actualRows : step.actualRows = none
  actualLoops : step.actualLoops = none

/-- No measurement is read when only the estimates are asked for. -/
theorem unmeasured_withMetrics {step : Step} (h : step.Unmeasured) (metrics : List Char) :
    (step.withMetrics .estimated metrics).Unmeasured :=
  Step.withMetrics_induction (P := Step.Unmeasured) h
    (fun _ _ hs => ⟨hs.timing, hs.actualRows, hs.actualLoops⟩) (fun hm => by cases hm) metrics

theorem read?_of_cut? {mode : Mode} {line front behind : List Char}
    (h : cut? "->".toList line = some (front, behind)) :
    Line.read? mode line = some
      { level := indentLevel line
        step := Step.withMetrics
          { operation := String.ofList (trim (splitMetrics (trim behind)).1) } mode
          (splitMetrics (trim behind)).2 } := by
  rw [Line.read?, h]
  rfl

/-- The operation of a step may stand on a line: nothing is left to trim, and no line feed and no
opener of metrics is in it. -/
structure Step.Tidy (step : Step) : Prop where
  trimmed : trim step.operation.toList = step.operation.toList
  no_feed : '\n' ∉ step.operation.toList
  clear : Clear step.operation.toList

/-- The operation that is read back from the line of a step. -/
def Step.rereadOperation (step : Step) : List Char :=
  if step.showsLoopsOnly then trim (step.operation.toList ++ step.metrics)
  else step.operation.toList

/-- The line has come back for a step that was written on the given level. -/
structure Line.ComesBack (level : Nat) (step : Step) (line : Line) : Prop where
  level : line.level = level
  operation : line.step.operation.toList = step.rereadOperation

theorem cut?_arrow {indent : List Char} (h : '-' ∉ indent) (behind : List Char) :
    cut? "->".toList (indent ++ ("-> ".toList ++ behind)) = some (indent, ' ' :: behind) :=
  cut?_append rfl h (' ' :: behind)

theorem renderLine_eq (level : Nat) (step : Step) :
    renderLine level step = List.replicate (level * indentWidth) ' '
      ++ ("-> ".toList ++ (step.operation.toList ++ step.metrics)) := by
  rw [renderLine, List.append_assoc, List.append_assoc]

theorem arrow_not_mem_spaces (n : Nat) : '-' ∉ List.replicate n ' ' := fun h =>
  absurd (List.mem_replicate.mp h).2 (by decide)

theorem indentLevel_spaces (level : Nat) (behind : List Char) :
    indentLevel (List.replicate (level * indentWidth) ' ' ++ ("-> ".toList ++ behind)) = level := by
  have hspaces : (List.replicate (level * indentWidth) ' ' ++ ("-> ".toList ++ behind)).takeWhile
      (· == ' ') = List.replicate (level * indentWidth) ' ' := by
    rw [List.takeWhile_append_of_pos]
    · simp
    · intro c hc
      simp [(List.mem_replicate.mp hc).2]
  rw [indentLevel, hspaces, List.length_replicate]
  exact Nat.mul_div_cancel level (by decide)

theorem exists_of_opensMetrics {cs : List Char} (h : opensMetrics cs = true) :
    ∃ rest, cs = '(' :: rest := by
  cases cs with
  | nil => cases h
  | cons c cs =>
    by_cases hc : c = '('
    · exact ⟨cs, by rw [hc]⟩
    · rw [opensMetrics_cons_of_ne hc] at h
      cases h

/-- The text behind the arrow is the operation and the metrics that open there. -/
theorem exists_splitMetrics_gap {operation more : List Char} (hc : Clear operation)
    (ho : opensMetrics more = true) (hlast : more.getLast? = some ')') :
    ∃ front, trim front = trim operation ∧
      splitMetrics (trim (operation ++ ' ' :: ' ' :: more)) = (front, more) := by
  have hspace : isBlank ' ' = true := by decide
  have hclose : isBlank ')' = false := by decide
  obtain ⟨front, back, hends, hfront, hback⟩ := exists_blank_ends operation
  by_cases hnil : trim operation = []
  · have hblank : ∀ c ∈ operation, isBlank c = true := by
      rw [hends, hnil, List.nil_append, List.forall_mem_append]
      exact ⟨hfront, hback⟩
    have hmore : Firm more := by
      obtain ⟨rest, rfl⟩ := exists_of_opensMetrics ho
      exact ⟨⟨'(', rfl, by decide⟩, ⟨')', hlast, hclose⟩⟩
    refine ⟨[], by rw [hnil]; rfl, ?_⟩
    rw [trim_blanks_append hblank, trim_cons_blank hspace, trim_cons_blank hspace, hmore.trim,
      splitMetrics_of_opens ho]
  · have hkept : Clear (trim operation ++ back) := hc.part ⟨front, [], by rw [← hends]; simp⟩
    refine ⟨trim operation ++ back ++ [' ', ' '], ?_, ?_⟩
    · have hspaces : ∀ c ∈ [' ', ' '], isBlank c = true := List.all_eq_true.mp (by decide)
      rw [trim_append_blanks hspaces, trim_append_blanks hback, trim_trim]
    · have hline : trim (operation ++ ' ' :: ' ' :: more)
          = trim operation ++ back ++ ' ' :: ' ' :: more := by
        have hlast' : (back ++ ' ' :: ' ' :: more).getLast? = some ')' := by
          obtain ⟨rest, rfl⟩ := exists_of_opensMetrics ho
          rw [List.getLast?_append, List.getLast?_cons_cons, List.getLast?_cons_cons, hlast]
          rfl
        conv => lhs; rw [hends]
        rw [List.append_assoc, List.append_assoc, trim_blanks_append hfront,
          trim_append (trim_trim _) hnil ⟨')', hlast', hclose⟩]
      rw [hline, splitMetrics_gap hkept ho]

/-- A line with metrics gives a step with its operation and these metrics. -/
theorem read?_metrics (mode : Mode) {indent operation more : List Char} (hi : '-' ∉ indent)
    (hc : Clear operation) (ho : opensMetrics more = true) (hlast : more.getLast? = some ')') :
    Line.read? mode (indent ++ ("-> ".toList ++ (operation ++ ' ' :: ' ' :: more))) = some
      { level := indentLevel (indent ++ ("-> ".toList ++ (operation ++ ' ' :: ' ' :: more)))
        step := Step.withMetrics { operation := String.ofList (trim operation) } mode more } := by
  obtain ⟨front, hfront, hsplit⟩ := exists_splitMetrics_gap hc ho hlast
  rw [read?_of_cut? (cut?_arrow hi _), trim_cons_blank (by decide), hsplit, hfront]

/-- What stands behind the arrow gives back the operation of a step. -/
theorem trim_splitMetrics {step : Step} (h : step.Tidy) :
    trim (splitMetrics (trim (step.operation.toList ++ step.metrics))).1
      = step.rereadOperation := by
  unfold Step.rereadOperation
  cases hl : step.showsLoopsOnly with
  | true =>
    obtain ⟨more, hmore, hclear⟩ := metrics_of_showsLoopsOnly hl
    have hline := (h.clear.gap hclear).part (trim_isInfixOf _)
    rw [if_pos rfl, hmore, splitMetrics_of_clear hline]
    exact trim_trim _
  | false =>
    rcases metrics_open hl with hnil | ⟨more, hmore, hopens⟩
    · rw [hnil, List.append_nil, h.trimmed, splitMetrics_of_clear h.clear]
      exact h.trimmed
    · have hlast := getLast?_metrics step
      obtain ⟨rest, rfl⟩ := exists_of_opensMetrics hopens
      rw [hmore, List.getLast?_cons_cons, List.getLast?_cons_cons] at hlast
      rw [hmore]
      have hsome := List.getLast?_eq_some_getLast (List.cons_ne_nil '(' rest)
      rw [hlast _ hsome] at hsome
      obtain ⟨front, hfront, hsplit⟩ := exists_splitMetrics_gap h.clear hopens hsome
      rw [hsplit, hfront, h.trimmed]
      rfl

/-- The line of a step holds a step, as deep as the line was written. -/
theorem read?_renderLine (mode : Mode) (level : Nat) {step : Step} (h : step.Tidy) :
    ∃ line, Line.read? mode (renderLine level step) = some line ∧ line.ComesBack level step := by
  have hspace : isBlank ' ' = true := by decide
  rw [renderLine_eq]
  refine ⟨_, read?_of_cut? (cut?_arrow (arrow_not_mem_spaces _) _), indentLevel_spaces level _, ?_⟩
  rw [operation_withMetrics, String.toList_ofList, trim_cons_blank hspace, trim_splitMetrics h]

theorem getLast?_operation {step : Step} (h : step.Tidy) :
    ∀ c ∈ step.operation.toList.getLast?, isBlank c = false := by
  rw [← h.trimmed]
  exact getLast?_trimEnd

/-- The lines of a plan stay apart when they are written one below the other. -/
theorem renderLine_is_line (level : Nat) {step : Step} (h : step.Tidy) :
    renderLine level step ≠ [] ∧ '\n' ∉ renderLine level step ∧
      (renderLine level step).getLast? ≠ some '\r' := by
  unfold renderLine
  refine ⟨by simp, ?_, ?_⟩
  · have hmetrics := feed_not_mem_metrics step
    simp [h.no_feed, hmetrics]
  · intro hlast
    rw [List.getLast?_append] at hlast
    rcases Option.or_eq_some_iff.mp hlast with hmetrics | ⟨_, hlast⟩
    · exact absurd (getLast?_metrics step _ hmetrics) (by decide)
    · rw [List.getLast?_append] at hlast
      rcases Option.or_eq_some_iff.mp hlast with hoperation | ⟨_, hlast⟩
      · exact absurd (getLast?_operation h _ hoperation) (by decide)
      · rw [List.getLast?_append] at hlast
        exact absurd hlast (by simp)

/-! ## Steps that are read -/

/-- On every line with an arrow something is read from what stands behind it. -/
theorem exists_of_read? {mode : Mode} {line : List Char} {l : Line}
    (h : Line.read? mode line = some l) :
    ∃ front behind, cut? "->".toList line = some (front, behind) ∧
      l.step = Step.withMetrics
        { operation := String.ofList (trim (splitMetrics (trim behind)).1) } mode
        (splitMetrics (trim behind)).2 := by
  obtain ⟨⟨front, behind⟩, hcut, rfl⟩ := Option.map_eq_some_iff.mp h
  exact ⟨front, behind, hcut, rfl⟩

theorem unmeasured_of_read? {line : List Char} {l : Line}
    (h : Line.read? .estimated line = some l) : l.step.Unmeasured := by
  obtain ⟨_, _, _, hstep⟩ := exists_of_read? h
  rw [hstep]
  exact unmeasured_withMetrics ⟨rfl, rfl, rfl⟩ _

/-- The step of a line is tidy. -/
theorem tidy_of_read? {mode : Mode} {line : List Char} {l : Line}
    (h : Line.read? mode line = some l) (hf : '\n' ∉ line) : l.step.Tidy := by
  obtain ⟨front, behind, hcut, hstep⟩ := exists_of_read? h
  have hpart : trim (splitMetrics (trim behind)).1 <:+: line := by
    have hbehind : behind <:+ line := ⟨front ++ "->".toList, (eq_of_cut? hcut).symm⟩
    have hoperation := (splitMetrics_isPrefixOf (trim behind)).isInfix
    exact (trim_isInfixOf _).trans (hoperation.trans ((trim_isInfixOf _).trans hbehind.isInfix))
  have hoperation : l.step.operation.toList = trim (splitMetrics (trim behind)).1 := by
    rw [hstep, operation_withMetrics, String.toList_ofList]
  constructor
  · rw [hoperation]
    exact trim_trim _
  · rw [hoperation]
    exact fun hmem => hf (hpart.subset hmem)
  · rw [hoperation]
    exact (clear_splitMetrics _).part (trim_isInfixOf _)

end QueryReview.Plan
