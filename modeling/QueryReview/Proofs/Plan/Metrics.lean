-- Where the operation of a line ends and its metrics begin. No operation has an opener of metrics
-- in it, no opener reaches over the gap between the two, and the metrics of a step start with an
-- opener, unless nothing is shown of the step but the count of its loops.
import QueryReview.Plan.Line
import QueryReview.Proofs.Decimal.Layout
import QueryReview.Proofs.Text.Find

namespace QueryReview.Plan

open Text Decimal

/-! ## Where the operation ends -/

/-- A group of metrics opens at the start of the text. -/
def opensMetrics (cs : List Char) : Bool := metricsOpeners.any (startsWith · cs)

/-- No group of metrics opens anywhere in the text. -/
def Clear (cs : List Char) : Prop := ∀ o ∈ metricsOpeners, occursIn o cs = false

theorem opensMetrics_iff {cs : List Char} :
    opensMetrics cs = true ↔ ∃ o ∈ metricsOpeners, o <+: cs := by
  simp [opensMetrics, startsWith_iff]

theorem opensMetrics_of_isPrefixOf {cs ds : List Char} (h : opensMetrics cs = true)
    (hp : cs <+: ds) : opensMetrics ds = true := by
  obtain ⟨o, ho, hcs⟩ := opensMetrics_iff.mp h
  exact opensMetrics_iff.mpr ⟨o, ho, hcs.trans hp⟩

theorem clear_nil : Clear [] := by
  unfold Clear
  decide

theorem clear_cons {c : Char} {cs : List Char} :
    Clear (c :: cs) ↔ opensMetrics (c :: cs) = false ∧ Clear cs := by
  simp only [Clear, occursIn, Bool.or_eq_false_iff, opensMetrics, List.any_eq_false,
    Bool.not_eq_true]
  constructor
  · intro h
    exact ⟨fun o ho => (h o ho).1, fun o ho => (h o ho).2⟩
  · rintro ⟨hhead, hrest⟩ o ho
    exact ⟨hhead o ho, hrest o ho⟩

theorem Clear.part {cs part : List Char} (h : Clear cs) (hp : part <:+: cs) : Clear part :=
  fun o ho => not_occursIn_part (h o ho) hp

/-- Every opener starts with a parenthesis. -/
theorem opensMetrics_cons_of_ne {c : Char} (hc : c ≠ '(') (cs : List Char) :
    opensMetrics (c :: cs) = false := by
  simp [opensMetrics, metricsOpeners, startsWith, after?, Ne.symm hc]

theorem clear_of_no_parenthesis {cs : List Char} (h : '(' ∉ cs) : Clear cs := by
  induction cs with
  | nil => exact clear_nil
  | cons c cs ih =>
    simp only [List.mem_cons, not_or] at h
    exact clear_cons.mpr ⟨opensMetrics_cons_of_ne (Ne.symm h.1) cs, ih h.2⟩

theorem opener_has_no_gap :
    ∀ o ∈ metricsOpeners, o.getLast? ≠ some ' ' ∧ occursIn [' ', ' '] o = false := by
  decide

/-- No opener has two spaces in a row or a space at its end, so none reaches into a gap. -/
theorem opensMetrics_gap {front : List Char} (h : opensMetrics front = false) (more : List Char) :
    opensMetrics (front ++ ' ' :: ' ' :: more) = false := by
  rw [← Bool.not_eq_true] at h ⊢
  intro hopens
  apply h
  obtain ⟨o, ho, back, hback⟩ := opensMetrics_iff.mp hopens
  obtain ⟨hlast, hgap⟩ := opener_has_no_gap o ho
  rw [List.append_eq_append_iff] at hback
  rcases hback with ⟨rest, hfront, _⟩ | ⟨within, hwithin, hspaces⟩
  · exact opensMetrics_iff.mpr ⟨o, ho, rest, hfront.symm⟩
  · rcases within with _ | ⟨a, _ | ⟨b, within⟩⟩
    · exact opensMetrics_iff.mpr ⟨o, ho, [], by simp [hwithin]⟩
    · cases hspaces
      exact absurd (by rw [hwithin, List.getLast?_concat]) hlast
    · cases hspaces
      rw [← Bool.not_eq_true, occursIn_iff] at hgap
      exact absurd ⟨front, within, by rw [hwithin]; simp⟩ hgap

theorem Clear.gap {operation more : List Char} (h : Clear operation) (hm : Clear more) :
    Clear (operation ++ ' ' :: ' ' :: more) := by
  have hspace : ' ' ≠ '(' := by decide
  induction operation with
  | nil =>
    have hone := clear_cons.mpr ⟨opensMetrics_cons_of_ne hspace more, hm⟩
    exact clear_cons.mpr ⟨opensMetrics_cons_of_ne hspace _, hone⟩
  | cons c cs ih =>
    obtain ⟨hopens, hcs⟩ := clear_cons.mp h
    exact clear_cons.mpr ⟨opensMetrics_gap hopens more, ih hcs⟩

theorem splitMetrics_cons (c : Char) (cs : List Char) :
    splitMetrics (c :: cs) = if opensMetrics (c :: cs) then ([], c :: cs)
      else (c :: (splitMetrics cs).1, (splitMetrics cs).2) := rfl

theorem splitMetrics_of_opens {cs : List Char} (h : opensMetrics cs = true) :
    splitMetrics cs = ([], cs) := by
  cases cs with
  | nil => rfl
  | cons c cs => rw [splitMetrics_cons, if_pos h]

theorem splitMetrics_of_clear {cs : List Char} (h : Clear cs) : splitMetrics cs = (cs, []) := by
  induction cs with
  | nil => rfl
  | cons c cs ih =>
    obtain ⟨hopens, hcs⟩ := clear_cons.mp h
    rw [splitMetrics_cons, hopens, ih hcs]
    rfl

/-- Metrics behind a gap are found where they open. -/
theorem splitMetrics_gap {operation more : List Char} (h : Clear operation)
    (hm : opensMetrics more = true) :
    splitMetrics (operation ++ ' ' :: ' ' :: more) = (operation ++ [' ', ' '], more) := by
  have hspace : ' ' ≠ '(' := by decide
  induction operation with
  | nil =>
    rw [List.nil_append, splitMetrics_cons, opensMetrics_cons_of_ne hspace, splitMetrics_cons,
      opensMetrics_cons_of_ne hspace, splitMetrics_of_opens hm]
    rfl
  | cons c cs ih =>
    obtain ⟨hopens, hcs⟩ := clear_cons.mp h
    have hfalse := opensMetrics_gap hopens more
    rw [List.cons_append] at hfalse ⊢
    rw [splitMetrics_cons, hfalse, ih hcs]
    rfl

theorem splitMetrics_isPrefixOf (cs : List Char) : (splitMetrics cs).1 <+: cs := by
  induction cs with
  | nil => exact List.prefix_rfl
  | cons c cs ih =>
    rw [splitMetrics_cons]
    split
    · exact List.nil_prefix
    · exact (List.prefix_cons_inj c).mpr ih

/-- The operation ends at the first opener, so there is none in it. -/
theorem clear_splitMetrics (cs : List Char) : Clear (splitMetrics cs).1 := by
  induction cs with
  | nil => exact clear_nil
  | cons c cs ih =>
    rw [splitMetrics_cons]
    split
    · exact clear_nil
    · rename_i hopens
      have hprefix := (List.prefix_cons_inj c).mpr (splitMetrics_isPrefixOf cs)
      refine clear_cons.mpr ⟨?_, ih⟩
      rw [← Bool.not_eq_true]
      exact fun h => hopens (opensMetrics_of_isPrefixOf h hprefix)

/-! ## What is written behind the operation -/

/-- Nothing is shown of the step but the count of its loops. -/
def Step.showsLoopsOnly (step : Step) : Bool :=
  step.cost.isNone && step.estimatedRows.isNone && step.timing.isNone && step.actualRows.isNone
    && step.actualLoops.isSome

theorem Step.showsLoopsOnly_iff {step : Step} : step.showsLoopsOnly = true ↔ step.cost = none ∧
    step.estimatedRows = none ∧ step.timing = none ∧ step.actualRows = none ∧
    step.actualLoops.isSome = true := by
  simp only [Step.showsLoopsOnly, Bool.and_eq_true, Option.isNone_iff_eq_none, and_assoc]

theorem feed_not_mem_parts (step : Step) :
    ∀ part ∈ step.estimateParts ++ step.actualParts, '\n' ∉ part := by
  have hfeed : isNumberChar '\n' = false := by decide
  intro part hpart
  simp only [Step.estimateParts, Step.actualParts, List.mem_append, Option.mem_toList,
    Option.map_eq_some_iff] at hpart
  rcases hpart with (⟨x, _, rfl⟩ | ⟨x, _, rfl⟩) | (⟨t, _, rfl⟩ | ⟨x, _, rfl⟩) | ⟨n, _, rfl⟩
  · simp [(numeric_fixed 2 x).not_mem hfeed]
  · simp [(numeric_count x).not_mem hfeed]
  · simp [(numeric_fixed 3 t.first).not_mem hfeed, (numeric_fixed 3 t.last).not_mem hfeed]
  · simp [(numeric_count x).not_mem hfeed]
  · simp [(numeric_digitChars n).not_mem hfeed]

theorem feed_not_mem_group {gap : String} {parts : List (List Char)} (hg : '\n' ∉ gap.toList)
    (hp : ∀ part ∈ parts, '\n' ∉ part) : '\n' ∉ group gap parts := by
  unfold group
  split
  · simp
  · have hjoin : '\n' ∉ join [' '] parts := by
      intro h
      rcases mem_join h with h | ⟨part, hpart, hc⟩
      · exact absurd h (by decide)
      · exact hp part hpart hc
    simp [hg, hjoin]

theorem feed_not_mem_metrics (step : Step) : '\n' ∉ step.metrics := by
  have hparts := List.forall_mem_append.mp (feed_not_mem_parts step)
  have hgap : '\n' ∉ (if step.estimateParts.isEmpty then "  " else " ").toList := by
    split <;> decide
  unfold Step.metrics
  rw [List.mem_append, not_or]
  exact ⟨feed_not_mem_group (by decide) hparts.1, feed_not_mem_group hgap hparts.2⟩

theorem getLast?_group (gap : String) (parts : List (List Char)) :
    ∀ c ∈ (group gap parts).getLast?, c = ')' := by
  unfold group
  split
  · simp
  · intro c hc
    rw [List.getLast?_concat] at hc
    exact (Option.some.inj hc).symm

/-- A line with metrics ends with a parenthesis. -/
theorem getLast?_metrics (step : Step) : ∀ c ∈ step.metrics.getLast?, c = ')' := by
  unfold Step.metrics
  intro c hc
  rw [List.getLast?_append] at hc
  rcases Option.or_eq_some_iff.mp hc with hc | ⟨_, hc⟩
  · exact getLast?_group _ _ c hc
  · exact getLast?_group _ _ c hc

theorem opensMetrics_group {parts : List (List Char)} (hne : parts ≠ [])
    (h : ∀ part ∈ parts.head?, opensMetrics ('(' :: part) = true) (rest : List Char) :
    ∃ more, group "  " parts ++ rest = ' ' :: ' ' :: more ∧ opensMetrics more = true := by
  obtain ⟨part, parts, rfl⟩ := List.exists_cons_of_ne_nil hne
  refine ⟨'(' :: (join [' '] (part :: parts) ++ [')'] ++ rest), by simp [group], ?_⟩
  apply opensMetrics_of_isPrefixOf (h part rfl)
  rw [List.prefix_cons_inj, List.append_assoc]
  exact (part_isPrefixOf_join _ _ _).trans (List.prefix_append _ _)

theorem estimateParts_open (step : Step) :
    ∀ part ∈ step.estimateParts.head?, opensMetrics ('(' :: part) = true := by
  intro part hpart
  unfold Step.estimateParts at hpart
  rcases hc : step.cost with _ | x
  · rcases hr : step.estimatedRows with _ | x
    · simp [hc, hr] at hpart
    · rw [hc, hr] at hpart
      cases hpart
      rfl
  · rw [hc] at hpart
    cases hpart
    rfl

theorem actualParts_open {step : Step} (h : step.showsLoopsOnly = false)
    (he : step.estimateParts = []) :
    ∀ part ∈ step.actualParts.head?, opensMetrics ('(' :: part) = true := by
  intro part hpart
  unfold Step.actualParts at hpart
  rcases ht : step.timing with _ | t
  · rcases hr : step.actualRows with _ | x
    · -- The count of the loops is the only part, and that is what `h` excludes.
      have hestimates : step.cost = none ∧ step.estimatedRows = none := by
        simpa [Step.estimateParts] using he
      have hloops : step.actualLoops = none := by
        simpa [Step.showsLoopsOnly, ht, hr, hestimates] using h
      simp [ht, hr, hloops] at hpart
    · rw [ht, hr] at hpart
      cases hpart
      rfl
  · rw [ht] at hpart
    cases hpart
    rfl

/-- The metrics of a step open with the first of them that is shown, unless that is the count of its
loops. -/
theorem metrics_open {step : Step} (h : step.showsLoopsOnly = false) :
    step.metrics = [] ∨ ∃ more, step.metrics = ' ' :: ' ' :: more ∧ opensMetrics more = true := by
  unfold Step.metrics
  by_cases he : step.estimateParts = []
  · by_cases ha : step.actualParts = []
    · exact .inl (by simp [he, ha, group])
    · have hopen := opensMetrics_group ha (actualParts_open h he) []
      rw [List.append_nil] at hopen
      rw [he]
      exact .inr hopen
  · exact .inr (opensMetrics_group he (estimateParts_open step) _)

theorem metrics_of_showsLoopsOnly {step : Step} (h : step.showsLoopsOnly = true) :
    ∃ more, step.metrics = ' ' :: ' ' :: more ∧ Clear more := by
  obtain ⟨hc, hr, ht, ha, hl⟩ := Step.showsLoopsOnly_iff.mp h
  obtain ⟨n, hn⟩ := Option.isSome_iff_exists.mp hl
  have hmetrics : step.metrics
      = ' ' :: ' ' :: '(' :: ("loops=".toList ++ (digitChars n ++ [')'])) := by
    simp [Step.metrics, Step.estimateParts, Step.actualParts, group, join, hc, hr, ht, ha, hn]
  have hdigits : '(' ∉ digitChars n := (numeric_digitChars n).not_mem (by decide)
  refine ⟨_, hmetrics, clear_cons.mpr ⟨rfl, ?_⟩⟩
  exact clear_of_no_parenthesis (by simp [hdigits])

end QueryReview.Plan
