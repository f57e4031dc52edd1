-- The figures of a summary. All results are counted, each as a success or as a failure, and only
-- the time of the queries can get too long to be added up.
import QueryReview.Proofs.Session.Independence

namespace QueryReview.Session

open Time

/-! ## Durations that do not fit -/

theorem Tally.foldlM_of_le {results : List QueryResult} {t : Tally}
    (ht : t.time.nanoseconds < Duration.limit)
    (h : Duration.limit ≤ t.time.nanoseconds + totalNanoseconds results) :
    results.foldlM Tally.add t = .error .durationOverflow := by
  induction results generalizing t with
  | nil =>
    unfold totalNanoseconds at h
    omega
  | cons r results ih =>
    unfold totalNanoseconds at h
    rw [List.foldlM_cons]
    by_cases hr : t.time.nanoseconds + r.nanoseconds < Duration.limit
    · obtain ⟨t', hadd, htime⟩ := add_of_lt hr
      rw [hadd]
      exact ih (by omega) (by omega)
    · have hadd : t.add r = .error .durationOverflow := by
        unfold add
        unfold QueryResult.nanoseconds at hr
        cases hd : r.duration with
        | none =>
          rw [hd, Option.elim_none] at hr
          omega
        | some duration =>
          rw [hd, Option.elim_some] at hr
          simp [Duration.add?, hr]
      rw [hadd]
      rfl

/-- A query that failed brings no time. -/
theorem totalNanoseconds_filter_isSuccess {results : List QueryResult}
    (h : ∀ r ∈ results, r.isFailed = true → r.duration = none) :
    totalNanoseconds (results.filter QueryResult.isSuccess) = totalNanoseconds results := by
  induction results with
  | nil => rfl
  | cons r results ih =>
    obtain ⟨hr, hrest⟩ := List.forall_mem_cons.mp h
    have hrec := ih hrest
    cases he : r.error with
    | none =>
      have hp : r.isSuccess = true := by simp [QueryResult.isSuccess, he]
      simp only [List.filter_cons, hp, if_true, totalNanoseconds, hrec]
    | some e =>
      have hp : r.isSuccess = false := by simp [QueryResult.isSuccess, he]
      have hnone : r.duration = none := hr (by simp [QueryResult.isFailed, he])
      have hzero : r.nanoseconds = 0 := by simp [QueryResult.nanoseconds, hnone]
      simp [hp, totalNanoseconds, hzero, hrec]

/-- Results whose durations cannot be added up have no summary. -/
theorem Summary.ofResults_of_le {results : List QueryResult}
    (hf : ∀ r ∈ results, r.isFailed = true → r.duration = none)
    (h : Duration.limit ≤ totalNanoseconds results) :
    Summary.ofResults results = .error .durationOverflow := by
  have hzero : ({} : Tally).time.nanoseconds = 0 := rfl
  have hpos : 0 < Duration.limit := by decide
  have hfold : (results.filter QueryResult.isSuccess).foldlM Tally.add {}
      = .error .durationOverflow := by
    refine Tally.foldlM_of_le (by omega) ?_
    rw [totalNanoseconds_filter_isSuccess hf]
    omega
  unfold ofResults
  rw [hfold]
  rfl

/-! ## Counts -/

theorem Tally.successes_add {t t' : Tally} {r : QueryResult} (h : t.add r = .ok t') :
    t'.successes = t.successes + 1 := by
  unfold add at h
  split at h
  · cases h
    rfl
  · split at h
    · cases h
    · cases h
      rfl

theorem Tally.successes_foldlM {results : List QueryResult} {t t' : Tally}
    (h : results.foldlM Tally.add t = .ok t') :
    t'.successes = t.successes + results.length := by
  induction results generalizing t with
  | nil =>
    cases h
    rfl
  | cons r results ih =>
    rw [List.foldlM_cons] at h
    cases hadd : t.add r with
    | error a =>
      rw [hadd] at h
      cases h
    | ok next =>
      rw [hadd] at h
      have hrest := ih h
      have hone := successes_add hadd
      simp only [List.length_cons]
      omega

theorem isFailed_eq_not_isSuccess (r : QueryResult) : r.isFailed = !r.isSuccess :=
  (Option.not_isNone r.error).symm

/-- Each result is a success or a failure. -/
theorem countP_isSuccess_add_countP_isFailed (results : List QueryResult) :
    results.countP QueryResult.isSuccess + results.countP QueryResult.isFailed
      = results.length := by
  rw [List.length_eq_countP_add_countP QueryResult.isSuccess]
  congr 1
  apply List.countP_congr
  simp [isFailed_eq_not_isSuccess]

/-- The three counts of a summary. -/
theorem Summary.counts {results : List QueryResult} {summary : Summary}
    (h : Summary.ofResults results = .ok summary) :
    summary.totalQueries = results.length ∧
    summary.successfulQueries = results.countP QueryResult.isSuccess ∧
    summary.failedQueries = results.countP QueryResult.isFailed := by
  unfold ofResults at h
  cases ht : (results.filter QueryResult.isSuccess).foldlM Tally.add {} with
  | error a =>
    rw [ht] at h
    cases h
  | ok t =>
    rw [ht] at h
    cases h
    have hsuccesses : t.successes = results.countP QueryResult.isSuccess := by
      rw [Tally.successes_foldlM ht, List.countP_eq_length_filter]
      exact Nat.zero_add _
    refine ⟨rfl, hsuccesses, ?_⟩
    rw [← countP_isSuccess_add_countP_isFailed, ← hsuccesses]
    exact Nat.add_sub_cancel_left _ _

/-! ## Reviews -/

/-- Results have a review, unless their durations cannot be added up. -/
theorem reviewOf_cases {results : List QueryResult}
    (hf : ∀ r ∈ results, r.isFailed = true → r.duration = none) :
    (totalNanoseconds results < Duration.limit ∧
      ∃ summary, Summary.ofResults results = .ok summary ∧
        reviewOf results = .ok { results, summary }) ∨
    (Duration.limit ≤ totalNanoseconds results ∧
      reviewOf results = .error (.aborted .durationOverflow)) := by
  by_cases hlt : totalNanoseconds results < Duration.limit
  · obtain ⟨summary, hsummary⟩ := Summary.ofResults_of_lt hlt
    refine .inl ⟨hlt, summary, hsummary, ?_⟩
    unfold reviewOf
    rw [hsummary]
  · refine .inr ⟨Nat.le_of_not_lt hlt, ?_⟩
    unfold reviewOf
    rw [Summary.ofResults_of_le hf (Nat.le_of_not_lt hlt)]

theorem reviewOf_eq_ok_iff {results : List QueryResult} {review : Review} :
    reviewOf results = .ok review ↔
      Summary.ofResults results = .ok review.summary ∧ review.results = results := by
  unfold reviewOf
  cases Summary.ofResults results with
  | error a => simp
  | ok summary =>
    obtain ⟨results', summary'⟩ := review
    simp [and_comm, eq_comm]

end QueryReview.Session
