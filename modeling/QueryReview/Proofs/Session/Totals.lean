-- The totals of a summary when the results come in another order. Counts, time and flag stay as they
-- are. The costs are added up from the first result to the last, and each sum is rounded, so their
-- total may hang on the order; it does not where no sum has to be rounded.
import QueryReview.Proofs.Decimal.Addition
import QueryReview.Proofs.Decimal.Reread
import QueryReview.Proofs.Session.Figures

namespace QueryReview.Session

open Time Decimal

/-! ## The cost -/

/-- What each success costs, by the first root of its plan. A plan without a cost costs nothing. -/
def costs (results : List QueryResult) : List Float :=
  (results.filter QueryResult.isSuccess).map fun r => r.rootCost.getD 0.0

theorem Tally.cost_add {t t' : Tally} {r : QueryResult} (h : t.add r = .ok t') :
    t'.cost = t.cost + r.rootCost.getD 0.0 := by
  unfold add at h
  split at h
  · cases h
    rfl
  · split at h
    · cases h
    · cases h
      rfl

theorem Tally.cost_foldlM {results : List QueryResult} {t t' : Tally}
    (h : results.foldlM Tally.add t = .ok t') :
    t'.cost = (results.map fun r => r.rootCost.getD 0.0).foldl (· + ·) t.cost := by
  induction results generalizing t with
  | nil =>
    cases h
    rfl
  | cons r results ih =>
    rw [List.foldlM_cons] at h
    cases hadd : t.add r with
    | error a =>
      rw [hadd] at h
      cases h
    | ok next =>
      rw [hadd] at h
      rw [ih h, cost_add hadd, List.map_cons, List.foldl_cons]

/-- The sum starts from zero. -/
theorem addUp_zero_cons {t : ℤ} {xs : List Float} (h : AddUp t xs) : AddUp t (0.0 :: xs) := by
  have hvalue : (Binary.ofFloat 0.0).value = 0 := by
    rw [isFinite_zero.2]
    exact (value_eq_zero_iff _).mpr rfl
  refine ⟨List.forall_mem_cons.mpr ⟨isFinite_zero.1, h.finite⟩,
    List.forall_mem_cons.mpr ⟨⟨0, ?_⟩, h.multiple⟩, ?_⟩
  · rw [hvalue, Int.cast_zero, zero_mul]
  · rw [List.map_cons, List.sum_cons, ← abs_value, hvalue, abs_zero, zero_add]
    exact h.sum_lt

namespace Summary

variable {results results' : List QueryResult} {summary summary' : Summary}

/-- The total is the sum from the first cost to the last, cut to a whole number. -/
theorem totalCost_eq (h : ofResults results = .ok summary) :
    summary.totalCost = truncateToSigned64 ((costs results).foldl (· + ·) 0.0) := by
  unfold ofResults at h
  cases ht : (results.filter QueryResult.isSuccess).foldlM Tally.add {} with
  | error a =>
    rw [ht] at h
    cases h
  | ok t =>
    rw [ht] at h
    cases h
    exact congrArg truncateToSigned64 (Tally.cost_foldlM ht)

/-- Costs that need no rounding have their exact sum as the total. -/
theorem totalCost_exact (h : ofResults results = .ok summary) {t : ℤ} (hlow : -1074 ≤ t)
    (htop : t ≤ 971) (hcosts : AddUp t (costs results)) :
    summary.totalCost
      = clamp (-Int.pow 2 63) (Int.pow 2 63 - 1) (cut (exactSum (costs results))) := by
  obtain ⟨hfinite, hvalue⟩ := foldl_add_exact hlow htop (addUp_zero_cons hcosts)
  have hzero : exactSum (0.0 :: costs results) = exactSum (costs results) := by
    rw [exactSum, List.map_cons, List.sum_cons, isFinite_zero.2,
      (value_eq_zero_iff _).mpr rfl, zero_add]
    rfl
  rw [totalCost_eq h, truncateToSigned64_eq hfinite, hvalue, hzero]

end Summary

/-! ## Another order -/

theorem totalNanoseconds_eq_sum (results : List QueryResult) :
    totalNanoseconds results = (results.map QueryResult.nanoseconds).sum := by
  induction results with
  | nil => rfl
  | cons r results ih => rw [totalNanoseconds, ih, List.map_cons, List.sum_cons]

theorem totalNanoseconds_perm {results results' : List QueryResult} (h : results.Perm results') :
    totalNanoseconds results = totalNanoseconds results' := by
  rw [totalNanoseconds_eq_sum, totalNanoseconds_eq_sum, (h.map _).sum_eq]

/-- Of the same results in another order the counts, the time and the flag are the same. -/
structure SameTotals (summary summary' : Summary) : Prop where
  total : summary'.totalQueries = summary.totalQueries
  successful : summary'.successfulQueries = summary.successfulQueries
  failed : summary'.failedQueries = summary.failedQueries
  time : summary'.totalExecutionTime = summary.totalExecutionTime
  warned : summary'.hasWarnings = summary.hasWarnings

theorem sameTotals_of_perm {results results' : List QueryResult} {summary summary' : Summary}
    (h : results.Perm results') (hs : Summary.ofResults results = .ok summary)
    (hs' : Summary.ofResults results' = .ok summary') : SameTotals summary summary' := by
  obtain ⟨htotal, hsuccessful, hfailed⟩ := Summary.counts hs
  obtain ⟨htotal', hsuccessful', hfailed'⟩ := Summary.counts hs'
  refine ⟨?_, ?_, ?_, ?_, ?_⟩
  · rw [htotal, htotal', h.length_eq]
  · rw [hsuccessful, hsuccessful', h.countP_eq]
  · rw [hfailed, hfailed', h.countP_eq]
  · apply congrArg Duration.mk
    rw [Summary.totalExecutionTime_eq hs, Summary.totalExecutionTime_eq hs']
    exact (totalNanoseconds_perm (h.filter _)).symm
  · rw [Bool.eq_iff_iff, Summary.hasWarnings_iff hs, Summary.hasWarnings_iff hs']
    simp only [h.mem_iff]

/-- Results whose times add up to a duration have a summary, in whatever order they come, and the
counts, the time and the flag do not hang on the order. The total cost is the sum of the costs from
the first to the last, and it does not hang on the order where the costs are whole multiples of one
power of two and fewer than `2 ^ 53` of it in all: then it is their exact sum, cut to a whole
number. -/
theorem the_order_changes_no_total_that_is_exact {results results' : List QueryResult}
    (h : results.Perm results')
    (hfits : totalNanoseconds (results.filter QueryResult.isSuccess) < Duration.limit) :
    ∃ summary summary', Summary.ofResults results = .ok summary ∧
      Summary.ofResults results' = .ok summary' ∧ SameTotals summary summary' ∧
      summary.totalCost = truncateToSigned64 ((costs results).foldl (· + ·) 0.0) ∧
      ∀ t : ℤ, -1074 ≤ t → t ≤ 971 → AddUp t (costs results) →
        summary'.totalCost = summary.totalCost ∧
        summary.totalCost
          = clamp (-Int.pow 2 63) (Int.pow 2 63 - 1) (cut (exactSum (costs results))) := by
  have hfits' : totalNanoseconds (results'.filter QueryResult.isSuccess) < Duration.limit := by
    rwa [← totalNanoseconds_perm (h.filter _)]
  obtain ⟨summary, hs⟩ := Summary.exists_of_successes_lt hfits
  obtain ⟨summary', hs'⟩ := Summary.exists_of_successes_lt hfits'
  refine ⟨summary, summary', hs, hs', sameTotals_of_perm h hs hs', Summary.totalCost_eq hs, ?_⟩
  intro t hlow htop hcosts
  have hperm : (costs results).Perm (costs results') := (h.filter _).map _
  have hexact := Summary.totalCost_exact hs hlow htop hcosts
  have hexact' := Summary.totalCost_exact hs' hlow htop (hcosts.perm hperm)
  rw [hexact, hexact', exactSum_perm hperm]
  exact ⟨rfl, rfl⟩

/-- Costs in quarters, added up from either end. -/
theorem quarters_have_one_total :
    let costing (cost : Float) (millis : Nat) : QueryResult :=
      .success 0 { id := "a", label := "a", sql := "SELECT * FROM t" } ["t"]
        ⟨.grow { operation := "Sort", cost := some cost } .empty .empty, none, [], []⟩
        (.ofMillis millis)
    let results := [costing 2.5 3, costing 0.75 9, costing 100.25 4]
    results.Perm results.reverse ∧
      totalNanoseconds (results.filter QueryResult.isSuccess) < Duration.limit ∧
      AddUp (-2) (costs results) ∧
      ∃ summary summary', Summary.ofResults results = .ok summary ∧
        Summary.ofResults results.reverse = .ok summary' ∧ SameTotals summary summary' ∧
        summary.totalCost = 103 ∧ summary'.totalCost = 103 := by
  intro costing results
  have hperm : results.Perm results.reverse := (List.reverse_perm results).symm
  have hfits : totalNanoseconds (results.filter QueryResult.isSuccess) < Duration.limit := by
    decide +kernel
  have hparts : Binary.ofFloat 2.5 = ⟨false, 5629499534213120, -51⟩ ∧
      Binary.ofFloat 0.75 = ⟨false, 6755399441055744, -53⟩ ∧
      Binary.ofFloat 100.25 = ⟨false, 7054466603810816, -46⟩ := by
    decide +kernel
  obtain ⟨hfirst, hsecond, hthird⟩ := hparts
  have hcosts : AddUp (-2) (costs results) := by
    change AddUp (-2) [2.5, 0.75, 100.25]
    refine ⟨by decide +kernel, ?_, ?_⟩
    · simp only [List.forall_mem_cons, hfirst, hsecond, hthird]
      refine ⟨⟨10, ?_⟩, ⟨3, ?_⟩, ⟨401, ?_⟩, by simp⟩
      all_goals norm_num [Binary.value, Binary.size]
    · norm_num [Binary.size, hfirst, hsecond, hthird]
  obtain ⟨summary, summary', hs, hs', hsame, hcost, hexact⟩ :=
    the_order_changes_no_total_that_is_exact hperm hfits
  obtain ⟨hcost', _⟩ := hexact (-2) (by decide) (by decide) hcosts
  have htotal : summary.totalCost = 103 := by
    rw [hcost]
    decide +kernel
  exact ⟨hperm, hfits, hcosts, summary, summary', hs, hs', hsame, htotal, hcost'.trans htotal⟩

/-- Three costs that add up to one from one end and to less from the other. -/
theorem tenths_have_two_totals :
    let costing (cost : Float) : QueryResult :=
      .success 0 { id := "a", label := "a", sql := "SELECT * FROM t" } ["t"]
        ⟨.grow { operation := "Sort", cost := some cost } .empty .empty, none, [], []⟩ .zero
    let results := [costing 0.7, costing 0.2, costing 0.1]
    results.Perm results.reverse ∧
      totalNanoseconds (results.filter QueryResult.isSuccess) < Duration.limit ∧
      ∃ summary summary', Summary.ofResults results = .ok summary ∧
        Summary.ofResults results.reverse = .ok summary' ∧
        summary.totalCost = 0 ∧ summary'.totalCost = 1 := by
  intro costing results
  have hfits : totalNanoseconds (results.filter QueryResult.isSuccess) < Duration.limit := by
    decide +kernel
  have hfits' : totalNanoseconds (results.reverse.filter QueryResult.isSuccess)
      < Duration.limit := by
    decide +kernel
  obtain ⟨summary, hs⟩ := Summary.exists_of_successes_lt hfits
  obtain ⟨summary', hs'⟩ := Summary.exists_of_successes_lt hfits'
  refine ⟨(List.reverse_perm results).symm, hfits, summary, summary', hs, hs', ?_, ?_⟩
  · rw [Summary.totalCost_eq hs]
    decide +kernel
  · rw [Summary.totalCost_eq hs']
    decide +kernel

end QueryReview.Session
