-- Plans that are written, read and written again. A built plan with nothing but estimates comes
-- back as it is. The text of a plan stays the same when each of its steps was timed or was not
-- measured at all; where a count was measured without a time, its line says when it stays.
import QueryReview.Proofs.Plan.Reread
import QueryReview.Proofs.Plan.RoundTrip

namespace QueryReview.Plan

open List (Forall₂)
open Text Decimal

/-! ## Steps that are read back -/

/-- A step as it may be read: it can stand on a line, its numbers are finite, and it was timed only
where measurements are asked for. -/
structure Step.Readable (mode : Mode) (step : Step) : Prop where
  tidy : step.Tidy
  finite : step.Finite
  timed : step.timing.isSome = true → mode = .actual

theorem Step.Unmeasured.settled {step : Step} (h : step.Unmeasured) : step.Settled :=
  .inr ⟨h.actualRows, h.actualLoops⟩

theorem Step.Unmeasured.readable {step : Step} (h : step.Unmeasured) (mode : Mode)
    (ht : step.Tidy) (hc : ∀ x ∈ step.cost, x.isFinite = true)
    (hr : ∀ x ∈ step.estimatedRows, x.isFinite = true) : step.Readable mode := by
  refine ⟨ht, ⟨hc, hr, ?_, ?_, ?_⟩, ?_⟩
  · rw [h.timing]
    rintro t ⟨⟩
  · rw [h.actualRows]
    rintro x ⟨⟩
  · rw [h.actualLoops]
    rintro n ⟨⟩
  · rw [h.timing]
    rintro ⟨⟩

theorem timing_eq_none_of_not_settled {step : Step} (h : ¬ step.Settled) : step.timing = none := by
  rw [← Option.not_isSome_iff_eq_none]
  exact fun ht => h (.inl ht)

/-- A settled step shows more than the count of its loops, if it shows that. -/
theorem Step.Settled.showsLoopsOnly {step : Step} (h : step.Settled) :
    step.showsLoopsOnly = false := by
  unfold Step.showsLoopsOnly
  rcases h with h | ⟨_, h⟩
  · rw [Option.isNone_eq_false_iff.mpr h]
    simp
  · rw [h]
    simp

/-- One count was measured without a time, and nothing was estimated. If it is that of the loops,
there is an operation that it can join. -/
structure Step.LoneCount (step : Step) : Prop where
  cost : step.cost = none
  estimatedRows : step.estimatedRows = none
  one : step.actualRows = none ∨ step.actualLoops = none
  operation : step.actualRows = none → step.operation ≠ ""

/-- The line of the step is the line of what is read from it. -/
def Step.Stays (step : Step) : Prop := step.Settled ∨ step.LoneCount

/-- The counts that were measured are the same, and so are the estimated rows where they are. -/
structure Step.KeepsCounts (step again : Step) : Prop where
  measured : again.actualRows = step.actualRows ∧ again.actualLoops = step.actualLoops ↔ step.Settled
  estimated : step.Settled → again.estimatedRows = step.estimatedRows

/-- A count of rows that is no longer known to be measured is written as before. -/
theorem metrics_of_estimatedRows {step again : Step} (hagain : again.Unmeasured)
    (hc : step.cost = none) (hr : step.estimatedRows = none) (ht : step.timing = none)
    (hcost : again.cost = none) (hrows : again.estimatedRows = step.actualRows)
    (hsome : step.actualRows.isSome = true) :
    again.metrics = step.metrics ↔ step.actualLoops = none := by
  obtain ⟨x, hx⟩ := Option.isSome_iff_exists.mp hsome
  unfold Step.metrics Step.estimateParts Step.actualParts
  rw [hagain.timing, hagain.actualRows, hagain.actualLoops, hcost, hrows, hc, hr, ht, hx]
  cases step.actualLoops <;> simp [group, join]

/-- Without its measurements a step with an estimate has a shorter line. -/
theorem metrics_ne_of_unmeasured {step again : Step} (hagain : again.Unmeasured)
    (hsome : step.actualParts ≠ []) (hparts : again.estimateParts = step.estimateParts) :
    again.metrics ≠ step.metrics := by
  have hnone : again.actualParts = [] := by
    simp [Step.actualParts, hagain.timing, hagain.actualRows, hagain.actualLoops]
  have hnil : ∀ gap, group gap [] = [] := fun gap => rfl
  intro heq
  unfold Step.metrics at heq
  simp only [hparts, hnone, hnil, List.append_nil] at heq
  have hgroup := List.self_eq_append_right.mp heq
  simp [group, hsome] at hgroup

/-- Nothing is trimmed from a line, unless it starts with the gap in front of the metrics. -/
theorem trim_gap_eq_iff {operation more : List Char} (h : trim operation = operation)
    (hlast : ∃ c ∈ (' ' :: more).getLast?, isBlank c = false) :
    trim (operation ++ ' ' :: more) = operation ++ ' ' :: more ↔ operation ≠ [] := by
  constructor
  · rintro heq rfl
    rw [List.nil_append, trim_cons_blank (by decide)] at heq
    have hshort := (trim_isInfixOf more).length_le
    rw [heq, List.length_cons] at hshort
    omega
  · exact fun hne => trim_append h hne hlast

theorem ReadBack.eq_of_read? {mode : Mode} {e e' : Nat × Step} (h : ReadBack mode e e') {l : Line}
    (hread : Line.read? mode (renderLine e.1 e.2) = some l) : e'.2 = { l.step with depth := e.1 } := by
  obtain ⟨l', hread', heq⟩ := h.line
  rw [hread] at hread'
  cases hread'
  exact heq

section
variable {mode : Mode} {e e' : Nat × Step} (h : ReadBack mode e e') (hr : e.2.Readable mode)
include h hr

theorem ReadBack.eq_reread (hl : e.2.showsLoopsOnly = false) :
    e'.2 = { e.2.reread mode with depth := e.1 } := by
  obtain ⟨l, hread, hstep⟩ := exists_step_of_renderLine mode e.1 hr.tidy hl
  rw [h.eq_of_read? hread, hstep]
  rfl

theorem ReadBack.eq_of_showsLoopsOnly (hl : e.2.showsLoopsOnly = true) :
    e'.2 = { operation := String.ofList (trim (e.2.operation.toList ++ e.2.metrics)),
             depth := e.1 } := by
  obtain ⟨l, hread, hstep⟩ := exists_step_of_lone_loops mode e.1 hr.tidy hl
  rw [h.eq_of_read? hread, hstep]

theorem ReadBack.printsAs (hs : e.2.Settled) :
    e'.2.operation = e.2.operation ∧ e.2.PrintsAs e'.2 := by
  have hprints := printsAs_reread hr.finite hs hr.timed
  rw [h.eq_reread hr hs.showsLoopsOnly]
  exact ⟨operation_reread mode e.2,
    ⟨hprints.cost, hprints.estimatedRows, hprints.timing, hprints.actualRows, hprints.actualLoops⟩⟩

/-- What was measured without a time is lost. -/
theorem ReadBack.unmeasured (hs : ¬ e.2.Settled) : e'.2.Unmeasured := by
  cases hl : e.2.showsLoopsOnly with
  | true =>
    rw [h.eq_of_showsLoopsOnly hr hl]
    exact ⟨rfl, rfl, rfl⟩
  | false =>
    rw [h.eq_reread hr hl, reread_of_timing_eq_none mode (timing_eq_none_of_not_settled hs)]
    split <;> exact ⟨rfl, rfl, rfl⟩

/-- What is read back was timed, or nothing of it is measured. -/
theorem ReadBack.settled : e'.2.Settled := by
  by_cases hs : e.2.Settled
  · obtain ⟨_, hprints⟩ := h.printsAs hr hs
    have htiming := congrArg Option.isSome hprints.timing
    rw [Option.isSome_map, Option.isSome_map] at htiming
    unfold Step.Settled
    rwa [htiming, hprints.actualRows, hprints.actualLoops]
  · exact (h.unmeasured hr hs).settled

theorem ReadBack.keepsCounts : e.2.KeepsCounts e'.2 := by
  by_cases hs : e.2.Settled
  · obtain ⟨_, hprints⟩ := h.printsAs hr hs
    exact ⟨iff_of_true ⟨hprints.actualRows, hprints.actualLoops⟩ hs, fun _ => hprints.estimatedRows⟩
  · have hagain := h.unmeasured hr hs
    refine ⟨iff_of_false ?_ hs, fun hs' => absurd hs' hs⟩
    rw [hagain.actualRows, hagain.actualLoops]
    exact fun heq => hs (.inr ⟨heq.1.symm, heq.2.symm⟩)

/-- A lone count of loops is written as before behind the operation that it joined. -/
theorem ReadBack.text_eq_iff_of_showsLoopsOnly (hl : e.2.showsLoopsOnly = true) :
    e'.2.operation.toList ++ e'.2.metrics = e.2.operation.toList ++ e.2.metrics
      ↔ e.2.LoneCount := by
  obtain ⟨hcost, hrows, _, hactual, _⟩ := Step.showsLoopsOnly_iff.mp hl
  have hlone : e.2.LoneCount ↔ e.2.operation.toList ≠ [] := by
    rw [Ne, String.toList_eq_nil_iff]
    exact ⟨fun hc => hc.operation hactual, fun hne => ⟨hcost, hrows, .inl hactual, fun _ => hne⟩⟩
  obtain ⟨more, hmore, _⟩ := metrics_of_showsLoopsOnly hl
  have hlast : ∃ c ∈ (' ' :: ' ' :: more).getLast?, isBlank c = false := by
    have hsome := List.getLast?_eq_some_getLast (List.cons_ne_nil ' ' (' ' :: more))
    have hclose := getLast?_metrics e.2 _ (by rw [hmore]; exact hsome)
    exact ⟨_, hsome, by rw [hclose]; decide⟩
  have hnone : e'.2.metrics = [] := by
    rw [h.eq_of_showsLoopsOnly hr hl]
    rfl
  rw [hnone, List.append_nil, h.eq_of_showsLoopsOnly hr hl, String.toList_ofList, hlone, hmore]
  exact trim_gap_eq_iff hr.tidy.trimmed hlast

/-- Behind an estimate the counts are left out; without one they are taken for it. -/
theorem ReadBack.metrics_eq_iff_of_not_settled (hs : ¬ e.2.Settled)
    (hl : e.2.showsLoopsOnly = false) : e'.2.metrics = e.2.metrics ↔ e.2.LoneCount := by
  have hcounts : ¬ (e.2.actualRows = none ∧ e.2.actualLoops = none) := fun hc => hs (.inr hc)
  have htiming := timing_eq_none_of_not_settled hs
  have hagain := h.unmeasured hr hs
  have hread := h.eq_reread hr hl
  rw [reread_of_timing_eq_none mode htiming] at hread
  by_cases hseen : e.2.estimated.seenEstimate = true
  · -- An estimate was read, so the group of the counts is read as nothing.
    have hparts : e'.2.estimateParts = e.2.estimateParts := by
      rw [hread, hseen]
      exact estimateParts_eq (reread_fixed hr.finite.cost) (reread_count hr.finite.estimatedRows)
    have hmeasured : e.2.actualParts ≠ [] := by
      simpa [Step.actualParts, htiming] using hcounts
    refine iff_of_false (metrics_ne_of_unmeasured hagain hmeasured hparts) fun hc => ?_
    simp [Step.estimated, hc.cost, hc.estimatedRows] at hseen
  · -- The group of the counts is the first one with rows, and is read as the estimate.
    simp only [Step.estimated, Bool.or_eq_true, not_or, Option.not_isSome_iff_eq_none] at hseen
    obtain ⟨hcost, hrows⟩ := hseen
    have hactual : e.2.actualRows.isSome = true := by
      rw [← Option.ne_none_iff_isSome]
      intro hnone
      have hloops := Option.ne_none_iff_isSome.mp fun hl => hcounts ⟨hnone, hl⟩
      rw [Step.showsLoopsOnly_iff.mpr ⟨hcost, hrows, htiming, hnone, hloops⟩] at hl
      cases hl
    have hlone : e.2.LoneCount ↔ e.2.actualLoops = none := by
      have hne := Option.ne_none_iff_isSome.mpr hactual
      exact ⟨fun hc => hc.one.resolve_left hne,
        fun hnone => ⟨hcost, hrows, .inr hnone, fun hc => absurd hc hne⟩⟩
    have hreread : e'.2.cost = none ∧ e'.2.estimatedRows = e.2.actualRows := by
      rw [hread, hactual]
      simp only [Step.estimated, hcost, hrows]
      exact ⟨rfl, reread_count hr.finite.actualRows⟩
    rw [hlone]
    exact metrics_of_estimatedRows hagain hcost hrows htiming hreread.1 hreread.2 hactual

/-- The line of a step against the line of what is read from it. -/
theorem ReadBack.renderLine_eq_iff : renderLine e'.1 e'.2 = renderLine e.1 e.2 ↔ e.2.Stays := by
  rw [h.level, renderLine_eq, renderLine_eq, List.append_cancel_left_eq,
    List.append_cancel_left_eq]
  by_cases hs : e.2.Settled
  · obtain ⟨hoperation, hprints⟩ := h.printsAs hr hs
    rw [hoperation, hprints.metrics]
    exact iff_of_true rfl (.inl hs)
  · have hstays : e.2.Stays ↔ e.2.LoneCount := or_iff_right hs
    rw [hstays]
    cases hl : e.2.showsLoopsOnly with
    | true => exact h.text_eq_iff_of_showsLoopsOnly hr hl
    | false =>
      have hoperation : e'.2.operation = e.2.operation := by
        rw [h.eq_reread hr hl]
        exact operation_reread mode e.2
      rw [hoperation, List.append_cancel_left_eq]
      exact h.metrics_eq_iff_of_not_settled hr hs hl

end

/-! ## Built plans -/

/-- A plan of any shape, whose steps may stand on lines and are not measured, comes back from its
text: in the same shape, each step as deep as it stands, with its operation, its count of rows and
a cost that is written as before, and with neither where it had none. -/
theorem a_built_plan_comes_back_from_its_text (mode : Mode) {plan : Forest}
    (ht : ∀ step ∈ plan.steps, step.Tidy) (hu : ∀ step ∈ plan.steps, step.Unmeasured)
    (hc : ∀ step ∈ plan.steps, ∀ x ∈ step.cost, x.isFinite = true)
    (hr : ∀ step ∈ plan.steps, ∀ x ∈ step.estimatedRows, x.isFinite = true) :
    let again := Forest.parse mode plan.render
    Forest.Alike (fun step read => read.operation = step.operation ∧
        read.estimatedRows = step.estimatedRows ∧
        read.cost.map (fixed 2) = step.cost.map (fixed 2) ∧
        (read.cost = none ↔ step.cost = none))
      plan again ∧ ∀ e ∈ again.walk, e.2.depth = e.1 := by
  intro again
  have hmem : ∀ e ∈ plan.walk, e.2 ∈ plan.steps := fun e he => List.mem_map_of_mem he
  have htidy : ∀ e ∈ plan.walk, e.2.Tidy := fun e he => ht e.2 (hmem e he)
  constructor
  · apply alike_reparse htidy
    intro e he e' hread
    have hnone := hu e.2 (hmem e he)
    have hreadable := hnone.readable mode (htidy e he) (hc e.2 (hmem e he)) (hr e.2 (hmem e he))
    obtain ⟨hoperation, hprints⟩ := hread.printsAs hreadable hnone.settled
    refine ⟨hoperation, hprints.estimatedRows, hprints.cost, ?_⟩
    rw [← Option.map_eq_none_iff (f := fixed 2), hprints.cost, Option.map_eq_none_iff]
  · intro e he
    obtain ⟨_, l, _, _, heq⟩ := exists_line_of_mem_walk he
    rw [heq]

theorem a_sorted_filter_comes_back_from_its_text :
    let sort : Step := { operation := "Sort: a -> b", cost := some 1.5, depth := 7 }
    let filter : Step := { operation := "Filter: (t.a = '(1)')", estimatedRows := some 3 }
    let nameless : Step := { operation := "" }
    let plan := Forest.grow sort (.grow filter .empty .empty) (.grow nameless .empty .empty)
    let again := Forest.parse .estimated plan.render
    Forest.Alike (fun step read => read.operation = step.operation ∧
        read.estimatedRows = step.estimatedRows ∧
        read.cost.map (fixed 2) = step.cost.map (fixed 2) ∧
        (read.cost = none ↔ step.cost = none))
      plan again ∧ ∀ e ∈ again.walk, e.2.depth = e.1 := by
  intro sort filter nameless plan
  have hall : ∀ {P : Step → Prop}, P sort → P filter → P nameless → ∀ step ∈ plan.steps, P step := by
    intro P hs hf hn step hstep
    have hsteps : plan.steps = [sort, filter, nameless] := by
      simp [plan, Forest.steps, Forest.walk_eq_preorder, Forest.preorder]
    rw [hsteps] at hstep
    simp only [List.mem_cons, List.not_mem_nil, or_false] at hstep
    rcases hstep with rfl | rfl | rfl
    · exact hs
    · exact hf
    · exact hn
  have htidy : ∀ step : Step, trim step.operation.toList = step.operation.toList ∧
      '\n' ∉ step.operation.toList ∧
      (∀ o ∈ metricsOpeners, occursIn o step.operation.toList = false) → step.Tidy :=
    fun step h => ⟨h.1, h.2.1, h.2.2⟩
  apply a_built_plan_comes_back_from_its_text
  · exact hall (htidy sort (by decide)) (htidy filter (by decide)) (htidy nameless (by decide))
  · exact hall ⟨rfl, rfl, rfl⟩ ⟨rfl, rfl, rfl⟩ ⟨rfl, rfl, rfl⟩
  · refine hall ?_ ?_ ?_
    · rintro x ⟨⟩
      decide +kernel
    · rintro x ⟨⟩
    · rintro x ⟨⟩
  · refine hall ?_ ?_ ?_
    · rintro x ⟨⟩
    · rintro x ⟨⟩
      decide +kernel
    · rintro x ⟨⟩

/-! ## Plans that are read and written again -/

theorem map_eq_map_iff_of_forall₂ {α β : Type} {R : α → α → Prop} {f : α → β} {P : α → Prop}
    {xs ys : List α} (h : Forall₂ R xs ys) (hf : ∀ x ∈ xs, ∀ y, R x y → (f y = f x ↔ P x)) :
    ys.map f = xs.map f ↔ ∀ x ∈ xs, P x := by
  induction h with
  | nil => simp
  | @cons x y xs ys hxy _ ih =>
    rw [List.forall_mem_cons] at hf
    rw [List.map_cons, List.map_cons, List.cons.injEq, List.forall_mem_cons, hf.1 y hxy, ih hf.2]

theorem exists_of_mem_right {α : Type} {R : α → α → Prop} {xs ys : List α} (h : Forall₂ R xs ys)
    {y : α} (hy : y ∈ ys) : ∃ x ∈ xs, R x y := by
  induction h with
  | nil => cases hy
  | @cons x y' xs ys hxy _ ih =>
    rcases List.mem_cons.mp hy with rfl | hy
    · exact ⟨x, List.mem_cons_self, hxy⟩
    · obtain ⟨x', hx', hr⟩ := ih hy
      exact ⟨x', List.mem_cons_of_mem _ hx', hr⟩

/-- A plan is written line by line, so its text stays when each line does. -/
theorem render_reparse_eq_iff {mode : Mode} {plan : Forest}
    (hr : ∀ e ∈ plan.walk, e.2.Readable mode) :
    (Forest.parse mode plan.render).render = plan.render ↔ ∀ e ∈ plan.walk, e.2.Stays := by
  have ht : ∀ e ∈ plan.walk, e.2.Tidy := fun e he => (hr e he).tidy
  rw [← map_eq_map_iff_of_forall₂ (f := fun e => renderLine e.1 e.2) (walk_reparse mode ht)
    fun e he e' h => h.renderLine_eq_iff (hr e he)]
  constructor
  · intro heq
    rw [← lines_render ht, ← lines_render tidy_of_mem_walk, heq]
  · intro heq
    rw [Forest.render, Forest.renderChars, heq]
    rfl

theorem readable_of_mem_walk {mode : Mode} {text : String} :
    ∀ e ∈ (Forest.parse mode text).walk, e.2.Readable mode := by
  intro e he
  refine ⟨tidy_of_mem_walk e he, ?_, fun hsome => ?_⟩
  · obtain ⟨line, l, _, hread, heq⟩ := exists_line_of_mem_walk he
    obtain ⟨hcost, hrows, htiming, hactual, hloops⟩ := finite_of_read? hread
    rw [heq]
    exact ⟨hcost, hrows, htiming, hactual, hloops⟩
  · cases mode with
    | actual => rfl
    | estimated =>
      rw [(unmeasured_of_mem_walk e he).timing] at hsome
      cases hsome

/-- The text of a plan that was read stays the same when it is read and written again, exactly when
each of its steps stays: when it was timed, or not measured at all, or a lone count can stand for it.
A step keeps the counts that were measured exactly when it was timed or not measured at all. Without
measurements each text stays, and with them the text that is written the second time does. -/
theorem the_text_of_a_plan_stays_exactly_when_its_steps_do (mode : Mode) (text : String) :
    let plan := Forest.parse mode text
    let again := Forest.parse mode plan.render
    (again.render = plan.render ↔ ∀ step ∈ plan.steps, step.Stays) ∧
    Forest.Alike Step.KeepsCounts plan again ∧
    (mode = .estimated → again.render = plan.render) ∧
    (Forest.parse mode again.render).render = again.render := by
  intro plan again
  have hsteps : (∀ step ∈ plan.steps, step.Stays) ↔ ∀ e ∈ plan.walk, e.2.Stays :=
    List.forall_mem_map
  refine ⟨?_, ?_, ?_, ?_⟩
  · rw [hsteps]
    exact render_reparse_eq_iff readable_of_mem_walk
  · apply alike_reparse tidy_of_mem_walk
    exact fun e he e' h => h.keepsCounts (readable_of_mem_walk e he)
  · rintro rfl
    apply (render_reparse_eq_iff readable_of_mem_walk).mpr
    exact fun e he => .inl (unmeasured_of_mem_walk e he).settled
  · apply (render_reparse_eq_iff readable_of_mem_walk).mpr
    intro e' he'
    obtain ⟨e, he, h⟩ := exists_of_mem_right (walk_reparse mode tidy_of_mem_walk) he'
    exact .inl (h.settled (readable_of_mem_walk e he))

/-- Without a time there is no word that tells a measured count from an estimate. -/
theorem counts_without_a_time_are_taken_for_an_estimate :
    let plan := Forest.parse .actual "-> A  (actual time=1 rows=3 loops=2)"
    let again := Forest.parse .actual plan.render
    plan.render = "-> A  (rows=3 loops=2)" ∧ again.render = "-> A  (rows=3)" ∧
      again.render ≠ plan.render ∧
      plan.steps.map (fun s => (s.estimatedRows, s.actualRows, s.actualLoops))
        = [(none, some 3, some 2)] ∧
      again.steps.map (fun s => (s.estimatedRows, s.actualRows, s.actualLoops))
        = [(some 3, none, none)] := by
  decide +kernel

end QueryReview.Plan
