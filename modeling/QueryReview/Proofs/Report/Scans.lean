-- Where a session speaks of full scans. The flag of its summary is taken from the plans of the
-- queries that succeeded, and the lists of warnings hang on single results. The two agree, since a
-- query that failed shows neither a plan nor a warning, and the report says what the flag says.
import QueryReview.Proofs.Report.Columns
import QueryReview.Proofs.Session.Figures
import QueryReview.Proofs.Session.Outcome
import QueryReview.Proofs.Text.Blank
import QueryReview.Report.Document

namespace QueryReview.Report

open Session Text

/-! ## The line of the report -/

/-- What is made in two steps has both of them made. -/
theorem exists_of_bind {α β : Type} {x : Except Abort α} {f : α → Except Abort β} {b : β}
    (h : (x >>= f) = .ok b) : ∃ a, x = .ok a ∧ f a = .ok b := by
  cases x with
  | error a => cases h
  | ok a => exact ⟨a, rfl, h⟩

/-- A label and a value in their columns. -/
theorem alignRow_pair {value : Cell} {c : Char} (hlast : value.getLast? = some c)
    (hc : isBlank c = false) (first second : Nat) (label : Cell) :
    alignRow [first, second] [label, value] = pad first label ++ columnGap ++ value := by
  have hjoin : join columnGap [pad first label, pad second value]
      = pad first label ++ columnGap ++ value ++ List.replicate (second - value.length) ' ' := by
    simp [join, pad]
  have hvalue : value ≠ [] := by
    rintro rfl
    cases hlast
  rw [alignRow, List.zipWith_cons_cons, List.zipWith_cons_cons, List.zipWith_nil_left, hjoin,
    trimEnd_eq_iff]
  refine ⟨_, rfl, ?_, ?_⟩
  · intro d hd
    rw [List.eq_of_mem_replicate hd]
    decide
  · intro d hd
    rw [List.getLast?_append, hlast, Option.some_or] at hd
    rw [← Option.some.inj hd]
    exact hc

/-- The labels of the figures fill the first column, however wide the second one is. -/
theorem exists_columnWidths_figures (slowest : List Char) (summary : Summary) :
    ∃ width, columnWidths (figures slowest summary) = [21, width] :=
  ⟨_, rfl⟩

/-- The line about full scans. -/
def scanLine (found : Bool) : Line :=
  (if found then "Full table scans:      yes" else "Full table scans:      no").toList

theorem alignRow_scans (width : Nat) (found : Bool) :
    alignRow [21, width] ["Full table scans:".toList, (if found then "yes" else "no").toList]
      = scanLine found := by
  cases found with
  | false => exact alignRow_pair (c := 'o') rfl (by decide) 21 width _
  | true => exact alignRow_pair (c := 's') rfl (by decide) 21 width _

variable {results : List QueryResult} {summary : Summary}

/-- The line is the last of the figures. -/
theorem executiveSummary_scans {top : List Line}
    (h : executiveSummary results summary = .ok top) :
    top.length = 10 ∧ top[9]? = some (scanLine summary.hasWarnings) := by
  obtain ⟨slowest, _, h⟩ := exists_of_bind h
  obtain ⟨rows, hrows, h⟩ := exists_of_bind h
  cases h
  obtain ⟨width, hwidths⟩ := exists_columnWidths_figures slowest summary
  rw [(alignRows_iff.mp hrows).2, hwidths, ← alignRow_scans width]
  exact ⟨rfl, rfl⟩

/-- The report tells of full scans in its sixteenth line, behind the header of six lines. -/
theorem reportLines_scans {clock : Clock} {includeActual : Bool} {lines : List Line}
    (h : reportLines clock results summary includeActual = .ok lines) :
    lines[15]? = some (scanLine summary.hasWarnings) := by
  obtain ⟨now, _, h⟩ := exists_of_bind h
  obtain ⟨top, htop, h⟩ := exists_of_bind h
  obtain ⟨queries, _, h⟩ := exists_of_bind h
  cases h
  obtain ⟨hlength, hline⟩ := executiveSummary_scans htop
  have hheader : (header now summary includeActual).length = 6 := rfl
  rw [List.getElem?_append_left (by simp [hheader, hlength]),
    List.getElem?_append_right (by simp [hheader]), hheader]
  exact hline

/-! ## The flag of the summary -/

theorem scans_iff_warned {r : QueryResult} {includeActual : Bool} (h : r.Coherent includeActual) :
    (r.isSuccess = true ∧ r.hasTableScans = true) ↔
      ∃ w ∈ r.warnings, w.kind = .fullTableScan := by
  by_cases hr : r.isSuccess = true
  · obtain ⟨_, _, _, _, _, _, _, plan, hplan, hwarnings⟩ := h.whole hr
    have hscans : r.hasTableScans = plan.hasTableScans := by
      rw [QueryResult.hasTableScans, hplan]
      rfl
    rw [hscans, hwarnings, ← Plan.Forest.hasTableScans_iff_warned]
    simp [hr]
  · have hfailed : r.isFailed = true := by simp [isFailed_eq_not_isSuccess, hr]
    obtain ⟨_, _, _, _, hwarnings⟩ := h.bare hfailed
    simp [hr, hwarnings]

theorem hasWarnings_iff_warned {S : Setting} {review : Review} (h : Comes S (.ok review)) :
    review.summary.hasWarnings = true ↔
      ∃ r ∈ review.results, ∃ w ∈ r.warnings, w.kind = .fullTableScan := by
  obtain ⟨s, hs, hresults, hsummary⟩ := h.exists_stage
  rw [Summary.hasWarnings_iff hsummary, ← hresults]
  constructor
  · rintro ⟨r, hr, hscans⟩
    exact ⟨r, hr, (scans_iff_warned (hs.coherent r hr)).mp hscans⟩
  · rintro ⟨r, hr, hwarned⟩
    exact ⟨r, hr, (scans_iff_warned (hs.coherent r hr)).mpr hwarned⟩

/-- A plan has a full scan exactly when the search finds one, in whatever case its needle is
written, and exactly when a warning tells of one. There is one warning for each step and each kind
that applies to it, in document order, the full scan first. In every session that comes to its end
the flag of the summary says whether some result warns of a full scan, and so does the report. -/
theorem every_detector_finds_the_same_scans (f : Plan.Forest) (S : Setting) :
    (∀ needle : String, needle.toList.map Char.toLower = "table scan".toList →
      f.containsOperation needle = f.hasTableScans) ∧
    (f.hasTableScans = true ↔ ∃ step, f.Has step ∧ step.isTableScan = true) ∧
    (f.hasTableScans = true ↔ ∃ w ∈ f.warnings, w.kind = .fullTableScan) ∧
    (∃ marks, Plan.Warned ((f.preorder 0).map Prod.snd) marks f.warnings) ∧
    ∀ review, Comes S (.ok review) →
      (review.summary.hasWarnings = true ↔
        ∃ r ∈ review.results, ∃ w ∈ r.warnings, w.kind = .fullTableScan) ∧
      ∀ clock text, report clock review.results review.summary S.includeActual = .ok text →
        ∃ lines, reportLines clock review.results review.summary S.includeActual = .ok lines ∧
          text = String.ofList (join ['\n'] lines ++ ['\n']) ∧
          lines[15]? = some (scanLine review.summary.hasWarnings) := by
  refine ⟨?_, Plan.Forest.hasTableScans_iff, Plan.Forest.hasTableScans_iff_warned,
    f.exists_warned_preorder, ?_⟩
  · intro needle hneedle
    have hsmall : ∀ c ∈ "table scan".toList, c.toNat < 0x80 := by simp
    exact Plan.Forest.containsOperation_eq hsmall hneedle
  · intro review hcomes
    refine ⟨hasWarnings_iff_warned hcomes, ?_⟩
    intro clock text htext
    obtain ⟨lines, hlines, htext⟩ := exists_of_bind htext
    cases htext
    exact ⟨lines, hlines, rfl, reportLines_scans hlines⟩

/-- A scan that stands far down in the plan of the one query of a session. -/
theorem a_scan_far_down_is_found_by_all :
    let request : Request := { id := "a", label := "a", sql := "SELECT * FROM t" }
    let collaborator : Collaborator := fun
      | .plan _ _ => ⟨2, .answer "-> Sort\n    -> Filter\n        -> Table scan on t"⟩
      | .columns _ => ⟨1, .answer []⟩
      | .indexes _ => ⟨1, .answer []⟩
    let S : Setting :=
      { options := {}, database := .of collaborator, includeActual := false, requests := [request] }
    let plan := Plan.Forest.parse .estimated "-> Sort\n    -> Filter\n        -> Table scan on t"
    "TABLE Scan".toList.map Char.toLower = "table scan".toList ∧
      plan.containsOperation "TABLE Scan" = true ∧
      ∃ review lines text, Comes S (.ok review) ∧ review.summary.hasWarnings = true ∧
        report (.ok 0) review.results review.summary S.includeActual = .ok text ∧
        text = String.ofList (join ['\n'] lines ++ ['\n']) ∧
        lines[15]? = some "Full table scans:      yes".toList := by
  intro request collaborator S plan
  have hneedle : "TABLE Scan".toList.map Char.toLower = "table scan".toList := by decide
  have hscans : plan.hasTableScans = true := by decide +kernel
  have hid : isBlankText "a" = false := by decide +kernel
  have hv : validate S.options.maxQueries S.requests = .ok () := by
    simp [S, request, validate, checkIds, hid]
  let results := (analyzeAll S.options collaborator false S.requests).map (·.result)
  have htime : totalNanoseconds results < Time.Duration.limit := by decide +kernel
  obtain ⟨summary, hcomes⟩ : ∃ summary, Comes S (.ok ⟨results, summary⟩) :=
    exists_comes_review hv rfl htime
  have hwarned : (results.any fun r => r.warnings.any (·.kind == .fullTableScan)) = true := by
    decide +kernel
  have hwritten : ((Summary.ofResults results).bind fun summary =>
      report (.ok 0) results summary false).isOk = true := by
    decide +kernel
  obtain ⟨hsearch, _, _, _, hsession⟩ := every_detector_finds_the_same_scans plan S
  obtain ⟨hiff, hreport⟩ := hsession _ hcomes
  have hflag : summary.hasWarnings = true := hiff.mpr (by simpa using hwarned)
  obtain ⟨_, _, _, hsummary⟩ := hcomes.exists_stage
  rw [show Summary.ofResults results = .ok summary from hsummary] at hwritten
  obtain ⟨text, htext⟩ : ∃ text, report (.ok 0) results summary false = .ok text := by
    cases h : report (.ok 0) results summary false with
    | error a => simp [Except.bind, h, Except.isOk, Except.toBool] at hwritten
    | ok text => exact ⟨text, rfl⟩
  obtain ⟨lines, _, hjoined, hline⟩ := hreport (.ok 0) text htext
  refine ⟨hneedle, (hsearch _ hneedle).trans hscans, ⟨results, summary⟩, lines, text, hcomes, hflag,
    htext, hjoined, ?_⟩
  rw [hline]
  simp [scanLine, hflag]

end QueryReview.Report
