-- What the figures of a summary are. They are taken in one pass over the results, and a result that
-- failed changes nothing but the counts. So the time is the sum of the times of the successes, the
-- flag says that the plan of some success has a full scan in it, and the slowest query is the first
-- of those that took longest.
import QueryReview.Proofs.Plan.Warnings
import QueryReview.Proofs.Session.Summary

namespace QueryReview.Session

open Time

/-! ## The first of the slowest -/

/-- The time that a result brings to the figures. A query that failed brings none. -/
def QueryResult.countedTime (r : QueryResult) : Option Duration :=
  if r.isSuccess then r.duration else none

/-- The result in this place took the given time, none took longer, and all before it took less. -/
structure FirstSlowest (results : List QueryResult) (place : Nat) (r : QueryResult)
    (d : Duration) : Prop where
  stands : results[place]? = some r
  counted : r.countedTime = some d
  longest : ∀ x ∈ results, ∀ e, x.countedTime = some e → e.nanoseconds ≤ d.nanoseconds
  earliest : ∀ x ∈ results.take place, ∀ e, x.countedTime = some e → e.nanoseconds < d.nanoseconds

namespace FirstSlowest

variable {results : List QueryResult} {place place' : Nat} {r r' x : QueryResult} {d d' : Duration}

theorem le_of_longest (h : FirstSlowest results place r d)
    (h' : FirstSlowest results place' r' d') : place' ≤ place := by
  refine Nat.le_of_not_lt fun hlt => ?_
  have hr : r ∈ results.take place' := by
    refine List.mem_of_getElem? (i := place) ?_
    rw [List.getElem?_take_of_lt hlt]
    exact h.stands
  have hless := h'.earliest r hr d h.counted
  have hmost := h.longest r' (List.mem_of_getElem? h'.stands) d' h'.counted
  omega

/-- There is at most one. -/
theorem unique (h : FirstSlowest results place r d) (h' : FirstSlowest results place' r' d') :
    r = r' := by
  obtain rfl : place = place' := Nat.le_antisymm (h'.le_of_longest h) (h.le_of_longest h')
  exact Option.some.inj (h.stands.symm.trans h'.stands)

/-- It stays the first of the slowest when the next one takes no longer. -/
theorem concat (h : FirstSlowest results place r d)
    (hx : ∀ e, x.countedTime = some e → e.nanoseconds ≤ d.nanoseconds) :
    FirstSlowest (results ++ [x]) place r d := by
  have hlt : place < results.length := (List.getElem?_eq_some_iff.mp h.stands).1
  refine ⟨?_, h.counted, ?_, ?_⟩
  · rw [List.getElem?_append_left hlt]
    exact h.stands
  · intro y hy
    rcases List.mem_append.mp hy with hy | hy
    · exact h.longest y hy
    · rw [List.mem_singleton.mp hy]
      exact hx
  · rw [List.take_append_of_le_length (Nat.le_of_lt hlt)]
    exact h.earliest

/-- A result that takes longer than all before it. -/
theorem concat_self (hr : r.countedTime = some d)
    (h : ∀ x ∈ results, ∀ e, x.countedTime = some e → e.nanoseconds < d.nanoseconds) :
    FirstSlowest (results ++ [r]) results.length r d := by
  refine ⟨List.getElem?_concat_length, hr, ?_, ?_⟩
  · intro x hx e he
    rcases List.mem_append.mp hx with hx | hx
    · exact Nat.le_of_lt (h x hx e he)
    · rw [List.mem_singleton.mp hx, hr] at he
      rw [Option.some.inj he]
  · rw [List.take_left]
    exact h

end FirstSlowest

/-! ## One pass -/

/-- What has been noted of the slowest query among the results so far. -/
inductive NotedSlowest (done : List QueryResult) : Option (Nat × Duration) → Prop
  | untimed : (∀ r ∈ done, r.countedTime = none) → NotedSlowest done none
  | timed {place : Nat} {r : QueryResult} {d : Duration} :
      FirstSlowest done place r d → NotedSlowest done (some (r.index, d))

/-- The figures are those of the results so far. -/
structure Tally.Of (t : Tally) (done : List QueryResult) : Prop where
  time : t.time.nanoseconds = totalNanoseconds (done.filter QueryResult.isSuccess)
  hasWarnings : t.hasWarnings = true ↔
    ∃ r ∈ done, r.isSuccess = true ∧ r.hasTableScans = true
  slowest : NotedSlowest done t.slowest

variable {done results results' : List QueryResult} {t t' : Tally} {r : QueryResult}

theorem totalNanoseconds_concat (results : List QueryResult) (r : QueryResult) :
    totalNanoseconds (results ++ [r]) = totalNanoseconds results + r.nanoseconds := by
  induction results with
  | nil => simp [totalNanoseconds]
  | cons x results ih =>
    simp only [List.cons_append, totalNanoseconds, ih]
    omega

/-- A result that brings no time changes nothing about the slowest. -/
theorem NotedSlowest.concat_untimed {noted : Option (Nat × Duration)} (h : NotedSlowest done noted)
    (hr : r.countedTime = none) : NotedSlowest (done ++ [r]) noted := by
  cases h with
  | untimed hnone =>
    refine .untimed fun x hx => ?_
    rcases List.mem_append.mp hx with hx | hx
    · exact hnone x hx
    · rw [List.mem_singleton.mp hx]
      exact hr
  | timed hfirst =>
    refine .timed (hfirst.concat fun e he => ?_)
    rw [hr] at he
    cases he

theorem NotedSlowest.concat_slower {noted : Option (Nat × Duration)} {d : Duration}
    (h : NotedSlowest done noted) (hr : r.countedTime = some d) :
    NotedSlowest (done ++ [r]) (slower noted r.index d) := by
  cases h with
  | untimed hnone =>
    refine .timed (FirstSlowest.concat_self hr fun x hx e he => ?_)
    rw [hnone x hx] at he
    cases he
  | @timed place s longest hfirst =>
    simp only [slower]
    split
    · rename_i hlonger
      simp only [Duration.longer, decide_eq_true_eq] at hlonger
      refine .timed (FirstSlowest.concat_self hr fun x hx e he => ?_)
      exact Nat.lt_of_le_of_lt (hfirst.longest x hx e he) hlonger
    · rename_i hlonger
      simp only [Duration.longer, decide_eq_true_eq, Nat.not_lt] at hlonger
      refine .timed (hfirst.concat fun e he => ?_)
      rw [hr] at he
      rw [← Option.some.inj he]
      exact hlonger

theorem Tally.Of.start : Tally.Of {} [] where
  time := rfl
  hasWarnings := by simp
  slowest := .untimed (by simp)

/-- A query that failed is passed over. -/
theorem Tally.Of.skip (h : t.Of done) (hr : ¬ r.isSuccess = true) : t.Of (done ++ [r]) where
  time := by
    rw [List.filter_append, List.filter_cons_of_neg hr, List.filter_nil, List.append_nil]
    exact h.time
  hasWarnings := by simp [h.hasWarnings, or_and_right, exists_or, hr]
  slowest := h.slowest.concat_untimed (by simp [QueryResult.countedTime, hr])

theorem Tally.Of.add (h : t.Of done) (hr : r.isSuccess = true) (hadd : t.add r = .ok t') :
    t'.Of (done ++ [r]) := by
  have hfilter : (done ++ [r]).filter QueryResult.isSuccess
      = done.filter QueryResult.isSuccess ++ [r] := by
    rw [List.filter_append, List.filter_cons_of_pos hr, List.filter_nil]
  have hscans : (t.hasWarnings || r.hasTableScans) = true ↔
      ∃ x ∈ done ++ [r], x.isSuccess = true ∧ x.hasTableScans = true := by
    simp [h.hasWarnings, or_and_right, exists_or, hr]
  have hcounted : r.countedTime = r.duration := by simp [QueryResult.countedTime, hr]
  unfold Tally.add at hadd
  cases hd : r.duration with
  | none =>
    rw [hd] at hadd hcounted
    cases hadd
    refine ⟨?_, hscans, h.slowest.concat_untimed hcounted⟩
    rw [hfilter, totalNanoseconds_concat, ← h.time]
    simp [QueryResult.nanoseconds, hd]
  | some d =>
    rw [hd] at hadd hcounted
    simp only [Duration.add?] at hadd
    by_cases hfits : t.time.nanoseconds + d.nanoseconds < Duration.limit
    · rw [if_pos hfits] at hadd
      cases hadd
      refine ⟨?_, hscans, h.slowest.concat_slower hcounted⟩
      rw [hfilter, totalNanoseconds_concat, ← h.time]
      simp [QueryResult.nanoseconds, hd]
    · rw [if_neg hfits] at hadd
      cases hadd

theorem Tally.Of.foldlM (h : t.Of done)
    (hfold : (results.filter QueryResult.isSuccess).foldlM Tally.add t = .ok t') :
    t'.Of (done ++ results) := by
  induction results generalizing t done with
  | nil =>
    cases hfold
    rw [List.append_nil]
    exact h
  | cons r results ih =>
    rw [List.append_cons]
    by_cases hr : r.isSuccess = true
    · rw [List.filter_cons_of_pos hr, List.foldlM_cons] at hfold
      cases hadd : t.add r with
      | error a =>
        rw [hadd] at hfold
        cases hfold
      | ok next =>
        rw [hadd] at hfold
        exact ih (h.add hr hadd) hfold
    · rw [List.filter_cons_of_neg hr] at hfold
      exact ih (h.skip hr) hfold

/-! ## The figures of a summary -/

namespace Summary

variable {summary : Summary}

/-- A summary shows the tally of all results. -/
theorem exists_tally (h : ofResults results = .ok summary) :
    ∃ t : Tally, t.Of results ∧ summary.totalExecutionTime = t.time ∧
      summary.hasWarnings = t.hasWarnings ∧
      summary.slowestQueryIndex = t.slowest.map Prod.fst := by
  unfold ofResults at h
  cases hfold : (results.filter QueryResult.isSuccess).foldlM Tally.add {} with
  | error a =>
    rw [hfold] at h
    cases h
  | ok t =>
    rw [hfold] at h
    cases h
    exact ⟨t, Tally.Of.start.foldlM hfold, rfl, rfl, rfl⟩

theorem totalExecutionTime_eq (h : ofResults results = .ok summary) :
    summary.totalExecutionTime.nanoseconds
      = totalNanoseconds (results.filter QueryResult.isSuccess) := by
  obtain ⟨t, ht, htime, _⟩ := exists_tally h
  rw [htime, ht.time]

theorem hasWarnings_iff (h : ofResults results = .ok summary) :
    summary.hasWarnings = true ↔ ∃ r ∈ results, r.isSuccess = true ∧ r.hasTableScans = true := by
  obtain ⟨t, ht, _, hwarnings, _⟩ := exists_tally h
  rw [hwarnings, ht.hasWarnings]

theorem slowestQueryIndex_iff (h : ofResults results = .ok summary) {index : Nat} :
    summary.slowestQueryIndex = some index ↔
      ∃ place r d, FirstSlowest results place r d ∧ r.index = index := by
  obtain ⟨t, ht, _, _, hslowest⟩ := exists_tally h
  have hnoted := ht.slowest
  rw [hslowest]
  generalize t.slowest = noted at hnoted
  cases hnoted with
  | untimed hnone =>
    simp only [Option.map_none, reduceCtorEq, false_iff]
    rintro ⟨place, r, d, hfirst, _⟩
    have hr := hnone r (List.mem_of_getElem? hfirst.stands)
    rw [hfirst.counted] at hr
    cases hr
  | timed hfirst =>
    rw [Option.map_some, Option.some.injEq]
    constructor
    · rintro rfl
      exact ⟨_, _, _, hfirst, rfl⟩
    · rintro ⟨place, r, d, hfirst', rfl⟩
      rw [hfirst.unique hfirst']

theorem slowestQueryIndex_eq_none_iff (h : ofResults results = .ok summary) :
    summary.slowestQueryIndex = none ↔ ∀ r ∈ results, r.countedTime = none := by
  obtain ⟨t, ht, _, _, hslowest⟩ := exists_tally h
  have hnoted := ht.slowest
  rw [hslowest]
  generalize t.slowest = noted at hnoted
  cases hnoted with
  | untimed hnone => simpa using hnone
  | timed hfirst =>
    simp only [Option.map_some, reduceCtorEq, false_iff]
    intro hnone
    have hr := hnone _ (List.mem_of_getElem? hfirst.stands)
    rw [hfirst.counted] at hr
    cases hr

/-- Of results with the same successes in the same order, only the counts may differ. -/
theorem ofResults_congr
    (h : results'.filter QueryResult.isSuccess = results.filter QueryResult.isSuccess) :
    ofResults results' = (ofResults results).map fun summary =>
      { summary with
        totalQueries := results'.length
        failedQueries := results'.countP QueryResult.isFailed } := by
  have hfailed : ∀ t : Tally, (results.filter QueryResult.isSuccess).foldlM Tally.add {} = .ok t →
      results'.length - t.successes = results'.countP QueryResult.isFailed := by
    intro t ht
    have hcount := countP_isSuccess_add_countP_isFailed results'
    rw [List.countP_eq_length_filter, h] at hcount
    have hsuccesses : t.successes = 0 + _ := Tally.successes_foldlM ht
    omega
  unfold ofResults
  rw [h]
  cases hfold : (results.filter QueryResult.isSuccess).foldlM Tally.add {} with
  | error a => rfl
  | ok t =>
    rw [← hfailed t hfold]
    rfl

/-- Only the times of the successes must fit into a duration. -/
theorem exists_of_successes_lt
    (h : totalNanoseconds (results.filter QueryResult.isSuccess) < Duration.limit) :
    ∃ summary, ofResults results = .ok summary := by
  obtain ⟨summary, hsummary⟩ := ofResults_of_lt h
  have hsame : results.filter QueryResult.isSuccess
      = (results.filter QueryResult.isSuccess).filter QueryResult.isSuccess := by simp
  have hcongr := ofResults_congr hsame
  rw [hsummary] at hcongr
  exact ⟨_, hcongr⟩

/-- What the figures of a summary say about the results. -/
structure Figures (summary : Summary) (results : List QueryResult) : Prop where
  total : summary.totalQueries = results.length
  successful : summary.successfulQueries = results.countP QueryResult.isSuccess
  failed : summary.failedQueries = results.countP QueryResult.isFailed
  counts : summary.successfulQueries + summary.failedQueries = summary.totalQueries
  time : summary.totalExecutionTime.nanoseconds
    = totalNanoseconds (results.filter QueryResult.isSuccess)
  /-- Some success has a full scan in its estimated plan, at whatever depth. -/
  warned : summary.hasWarnings = true ↔ ∃ r ∈ results, r.isSuccess = true ∧
    ∃ plan step, r.estimated = some plan ∧ plan.Has step ∧ step.isTableScan = true
  slowest : ∀ index, summary.slowestQueryIndex = some index ↔
    ∃ place r d, FirstSlowest results place r d ∧ r.index = index
  untimed : summary.slowestQueryIndex = none ↔
    ∀ r ∈ results, r.isSuccess = true → r.duration = none

end Summary

theorem hasTableScans_result_iff : r.hasTableScans = true ↔
    ∃ plan step, r.estimated = some plan ∧ plan.Has step ∧ step.isTableScan = true := by
  unfold QueryResult.hasTableScans
  cases r.estimated with
  | none => simp
  | some plan => simp [Plan.Forest.hasTableScans_iff]

theorem countedTime_eq_none_iff :
    r.countedTime = none ↔ (r.isSuccess = true → r.duration = none) := by
  unfold QueryResult.countedTime
  split <;> simp_all

theorem Summary.figures {summary : Summary} (h : Summary.ofResults results = .ok summary) :
    summary.Figures results := by
  obtain ⟨htotal, hsuccessful, hfailed⟩ := Summary.counts h
  refine ⟨htotal, hsuccessful, hfailed, ?_, Summary.totalExecutionTime_eq h, ?_,
    fun _ => Summary.slowestQueryIndex_iff h, ?_⟩
  · rw [hsuccessful, hfailed, htotal, countP_isSuccess_add_countP_isFailed]
  · simp only [Summary.hasWarnings_iff h, hasTableScans_result_iff]
  · simp only [Summary.slowestQueryIndex_eq_none_iff h, countedTime_eq_none_iff]

/-- Results have a summary if the times of the successes add up to a duration. Its counts are those
of all results, its time is the sum of the times of the successes, its flag says that some success
has a full scan in its plan, and its slowest query is the first of the successes that took longest.
Failed results may be put in or taken out anywhere, with whatever they carry: only the number of all
queries and that of the failed ones change. -/
theorem the_figures_are_those_of_the_successes
    (h : totalNanoseconds (results.filter QueryResult.isSuccess) < Duration.limit) :
    ∃ summary, Summary.ofResults results = .ok summary ∧ summary.Figures results ∧
      ∀ results', results'.filter QueryResult.isSuccess = results.filter QueryResult.isSuccess →
        Summary.ofResults results' = .ok { summary with
          totalQueries := results'.length
          failedQueries := results'.countP QueryResult.isFailed } := by
  obtain ⟨summary, hsummary⟩ := Summary.exists_of_successes_lt h
  refine ⟨summary, hsummary, Summary.figures hsummary, ?_⟩
  intro results' hsame
  rw [Summary.ofResults_congr hsame, hsummary]
  rfl

/-- Two queries that took equally long, behind one that failed with a longer time and a scan. -/
theorem a_failed_scan_is_not_in_the_figures :
    let request : Request := { id := "a", label := "a", sql := "SELECT * FROM t" }
    let scan : Plan.Forest := .grow { operation := "Table scan on t" } .empty .empty
    let lookup : Plan.Forest := .grow { operation := "Index lookup on t" } .empty .empty
    let timed (index millis : Nat) (plan : Plan.Forest) : QueryResult :=
      .success index request ["t"] ⟨plan, none, [], []⟩ (.ofMillis millis)
    let failed : QueryResult := { timed 0 20 scan with error := some (.fetchFailure "gone") }
    let results := [failed, timed 7 9 lookup, timed 2 9 lookup]
    totalNanoseconds (results.filter QueryResult.isSuccess) < Duration.limit ∧
      ∃ summary, Summary.ofResults results = .ok summary ∧ summary.slowestQueryIndex = some 7 ∧
        summary.totalExecutionTime = .ofMillis 18 ∧ summary.hasWarnings = false ∧
        Summary.ofResults [timed 7 9 lookup, timed 2 9 lookup]
          = .ok { summary with totalQueries := 2, failedQueries := 0 } := by
  intro request scan lookup timed failed results
  have hsum : totalNanoseconds (results.filter QueryResult.isSuccess) = 18 * Nat.pow 10 6 := by
    decide +kernel
  have hfits : totalNanoseconds (results.filter QueryResult.isSuccess) < Duration.limit := by
    rw [hsum]
    decide
  obtain ⟨summary, hsummary, hfigures, hcongr⟩ := the_figures_are_those_of_the_successes hfits
  have hfirst : FirstSlowest results 1 (timed 7 9 lookup) (.ofMillis 9) := by
    refine ⟨rfl, rfl, ?_, ?_⟩
    · simp [results, failed, timed, QueryResult.countedTime, QueryResult.success,
        QueryResult.isSuccess]
    · simp [results, failed, timed, QueryResult.countedTime, QueryResult.success,
        QueryResult.isSuccess]
  refine ⟨hfits, summary, hsummary, (hfigures.slowest 7).mpr ⟨1, _, _, hfirst, rfl⟩, ?_, ?_, ?_⟩
  · exact congrArg Duration.mk (hfigures.time.trans hsum)
  · rw [Bool.eq_false_iff, Ne, Summary.hasWarnings_iff hsummary]
    have hlookup : lookup.hasTableScans = false := by decide +kernel
    simp [results, failed, timed, QueryResult.success, QueryResult.isSuccess,
      QueryResult.hasTableScans, hlookup]
  · exact hcongr [timed 7 9 lookup, timed 2 9 lookup] rfl

end QueryReview.Session
