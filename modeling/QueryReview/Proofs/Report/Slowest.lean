-- What a report says of the slowest query: once among the figures, and once in the section of that
-- query. The figures look the query up by the index that the summary has noted, and every result of
-- a session has its own place in the list as its index, so both speak of the same query.
import Mathlib.Data.List.Forall2
import QueryReview.Proofs.Report.Columns
import QueryReview.Proofs.Report.Scans
import QueryReview.Report.Document

namespace QueryReview.Report

open Session Text Time

/-! ## When a report can be written -/

section
variable {α β : Type} {f : α → Except Abort β}

theorem exists_bind_iff {x : Except Abort α} :
    (∃ b, (x >>= f) = .ok b) ↔ ∃ a, x = .ok a ∧ ∃ b, f a = .ok b := by
  constructor
  · rintro ⟨b, h⟩
    obtain ⟨a, hx, hf⟩ := exists_of_bind h
    exact ⟨a, hx, b, hf⟩
  · rintro ⟨a, rfl, b, hf⟩
    exact ⟨b, hf⟩

/-- What is made of a list one by one is made of each. -/
theorem forall₂_of_mapM {xs : List α} {ys : List β} (h : xs.mapM f = .ok ys) :
    List.Forall₂ (fun x y => f x = .ok y) xs ys := by
  induction xs generalizing ys with
  | nil =>
    cases h
    exact .nil
  | cons x xs ih =>
    rw [List.mapM_cons] at h
    obtain ⟨y, hy, h⟩ := exists_of_bind h
    obtain ⟨rest, hrest, h⟩ := exists_of_bind h
    cases h
    exact .cons hy (ih hrest)

theorem exists_mapM_iff {xs : List α} :
    (∃ ys, xs.mapM f = .ok ys) ↔ ∀ x ∈ xs, ∃ y, f x = .ok y := by
  induction xs with
  | nil => exact ⟨fun _ _ hx => absurd hx List.not_mem_nil, fun _ => ⟨[], rfl⟩⟩
  | cons x xs ih =>
    rw [List.mapM_cons, exists_bind_iff, List.forall_mem_cons, ← ih]
    constructor
    · rintro ⟨y, hy, h⟩
      obtain ⟨rest, hrest, _⟩ := exists_bind_iff.mp h
      exact ⟨⟨y, hy⟩, rest, hrest⟩
    · rintro ⟨⟨y, hy⟩, rest, hrest⟩
      exact ⟨y, hy, exists_bind_iff.mpr ⟨rest, hrest, _, rfl⟩⟩

theorem exists_sections_iff {write : α → Except Abort (List Line)} {items : List α} :
    (∃ lines, sections write items = .ok lines) ↔ ∀ x ∈ items, ∃ lines, write x = .ok lines := by
  rw [← exists_mapM_iff]
  refine exists_bind_iff.trans (exists_congr fun parts => ?_)
  exact ⟨fun h => h.1, fun h => ⟨h, _, rfl⟩⟩

end

theorem exists_alignRows_iff {rows : List (List Cell)} :
    (∃ lines, alignRows rows = .ok lines) ↔ Fits rows := by
  simp [alignRows_iff]

theorem exists_alignTable_iff {header : List Cell} {rows : List (List Cell)} :
    (∃ lines, alignTable header rows = .ok lines) ↔ Fits (header :: rows) := by
  rw [← fits_with_rule]
  exact exists_alignRows_iff

theorem exists_tableSection_iff {title name note : String} {header : List String}
    {rows : List (List Cell)} (hheader : Fits [header.map String.toList]) :
    (∃ lines, tableSection title name note header rows = .ok lines) ↔
      Fits (header.map String.toList :: rows) := by
  cases rows with
  | nil => exact ⟨fun _ => hheader, fun _ => ⟨_, rfl⟩⟩
  | cons row rows =>
    rw [← exists_alignTable_iff]
    change (∃ lines, (alignTable (header.map String.toList) (row :: rows) >>= fun body =>
      pure ([] :: (title.toList ++ name.toList) :: body)) = .ok lines) ↔ _
    refine exists_bind_iff.trans (exists_congr fun body => ?_)
    exact ⟨fun h => h.1, fun h => ⟨h, _, rfl⟩⟩

/-- The table of a table's columns. -/
def columnTable (s : Catalog.TableSchema) : List (List Cell) :=
  ["Column", "Type", "Null", "Key", "Default", "Extra"].map String.toList :: s.columns.map columnRow

/-- The table of a table's indexes. -/
def indexTable (s : Catalog.TableSchema) : List (List Cell) :=
  ["Name", "Column", "Seq", "Unique", "Type"].map String.toList :: s.indexes.map indexRow

theorem exists_schemaSection_iff {s : Catalog.TableSchema} :
    (∃ lines, schemaSection s = .ok lines) ↔ Fits (columnTable s) ∧ Fits (indexTable s) := by
  have hcolumns :
      Fits [["Column", "Type", "Null", "Key", "Default", "Extra"].map String.toList] := by
    decide
  have hindexes : Fits [["Name", "Column", "Seq", "Unique", "Type"].map String.toList] := by
    decide
  rw [columnTable, indexTable, ← exists_tableSection_iff hcolumns,
    ← exists_tableSection_iff hindexes]
  refine exists_bind_iff.trans ⟨?_, ?_⟩
  · rintro ⟨columns, hc, h⟩
    obtain ⟨indexes, hi, _⟩ := exists_bind_iff.mp h
    exact ⟨⟨columns, hc⟩, indexes, hi⟩
  · rintro ⟨⟨columns, hc⟩, indexes, hi⟩
    exact ⟨columns, hc, exists_bind_iff.mpr ⟨indexes, hi, _, rfl⟩⟩

theorem placeNumber_eq_ok_iff {index place : Nat} :
    placeNumber index = .ok place ↔ index < Nat.pow 2 64 - 1 ∧ place = index + 1 := by
  unfold placeNumber
  split <;> simp_all [eq_comm]

/-- The tables in the section of a query. -/
def shownTables (r : QueryResult) : Except Abort (List Line) :=
  if r.isSuccess then sections schemaSection r.schemas else pure []

/-- The section of a query above its tables. -/
def sectionTop (place : Nat) (r : QueryResult) : List Line :=
  [ [], heavyRule, "QUERY ".toList ++ number place ++ ": ".toList ++ r.request.label.toList,
    heavyRule, statusLine r, [], "SQL:".toList, r.request.sql.toList ]
  ++ planSection "EXPLAIN ANALYZE:" r.actual ++ planSection "EXPLAIN:" r.estimated
  ++ warningSection r.warnings

theorem querySection_eq (r : QueryResult) :
    querySection r = placeNumber r.index >>= fun place =>
      shownTables r >>= fun tables => pure (sectionTop place r ++ tables) := by
  unfold querySection shownTables
  cases r.isSuccess <;> rfl

theorem exists_shownTables_iff {r : QueryResult} :
    (∃ tables, shownTables r = .ok tables) ↔
      (r.isSuccess = true → ∀ s ∈ r.schemas, Fits (columnTable s) ∧ Fits (indexTable s)) := by
  simp only [← exists_schemaSection_iff, ← exists_sections_iff]
  unfold shownTables
  cases r.isSuccess with
  | false => exact ⟨fun _ h => absurd h Bool.false_ne_true, fun _ => ⟨[], rfl⟩⟩
  | true => exact ⟨fun h _ => h, fun h => h rfl⟩

theorem exists_querySection_iff {r : QueryResult} :
    (∃ lines, querySection r = .ok lines) ↔ r.index < Nat.pow 2 64 - 1 ∧
      (r.isSuccess = true → ∀ s ∈ r.schemas, Fits (columnTable s) ∧ Fits (indexTable s)) := by
  rw [← exists_shownTables_iff, querySection_eq]
  refine exists_bind_iff.trans ⟨?_, ?_⟩
  · rintro ⟨place, hplace, h⟩
    obtain ⟨tables, ht, _⟩ := exists_bind_iff.mp h
    exact ⟨(placeNumber_eq_ok_iff.mp hplace).1, tables, ht⟩
  · rintro ⟨hindex, tables, ht⟩
    exact ⟨_, placeNumber_eq_ok_iff.mpr ⟨hindex, rfl⟩, exists_bind_iff.mpr ⟨tables, ht, _, rfl⟩⟩

/-- Nothing stands in the way of a report. -/
structure Writable (clock : Clock) (results : List QueryResult) (summary : Summary) : Prop where
  clock : ∃ now, clock = .ok now
  places : ∀ r ∈ results, r.index < Nat.pow 2 64 - 1
  /-- No figure is longer than a column may be wide, the name of the slowest query with them. -/
  figures : ∃ value, slowestText results summary = .ok value ∧ Fits (figures value summary)
  tables : ∀ r ∈ results, r.isSuccess = true →
    ∀ s ∈ r.schemas, Fits (columnTable s) ∧ Fits (indexTable s)

variable {results : List QueryResult} {summary : Summary} {clock : Clock} {includeActual : Bool}

theorem exists_reportLines_iff :
    (∃ lines, reportLines clock results summary includeActual = .ok lines) ↔
      Writable clock results summary := by
  have hfigures : (∃ top, executiveSummary results summary = .ok top) ↔
      ∃ value, slowestText results summary = .ok value ∧ Fits (figures value summary) := by
    simp only [← exists_alignRows_iff]
    refine exists_bind_iff.trans (exists_congr fun value => and_congr_right fun _ => ?_)
    refine exists_bind_iff.trans (exists_congr fun rows => ?_)
    exact ⟨fun h => h.1, fun h => ⟨h, _, rfl⟩⟩
  constructor
  · intro h
    obtain ⟨now, hnow, h⟩ := exists_bind_iff.mp h
    obtain ⟨top, htop, h⟩ := exists_bind_iff.mp h
    obtain ⟨queries, hqueries, _⟩ := exists_bind_iff.mp h
    have hsections := fun r hr =>
      exists_querySection_iff.mp (exists_sections_iff.mp ⟨queries, hqueries⟩ r hr)
    exact ⟨⟨now, hnow⟩, fun r hr => (hsections r hr).1, hfigures.mp ⟨top, htop⟩,
      fun r hr => (hsections r hr).2⟩
  · rintro ⟨⟨now, hnow⟩, hplaces, hvalue, htables⟩
    obtain ⟨top, htop⟩ := hfigures.mpr hvalue
    obtain ⟨queries, hqueries⟩ := exists_sections_iff.mpr fun r hr =>
      exists_querySection_iff.mpr ⟨hplaces r hr, htables r hr⟩
    exact exists_bind_iff.mpr ⟨now, hnow, exists_bind_iff.mpr ⟨top, htop,
      exists_bind_iff.mpr ⟨queries, hqueries, _, rfl⟩⟩⟩

/-! ## What the report shows -/

/-- The line about the slowest query. -/
def slowestLine (value : List Char) : Line := "Slowest query:         ".toList ++ value

/-- The title of the section of a query. -/
def titleLine (place : Nat) (r : QueryResult) : Line :=
  "QUERY ".toList ++ number place ++ ": ".toList ++ r.request.label.toList

/-- The status of a query that took the given time. -/
def okLine (d : Duration) : Line := "Status: OK (".toList ++ seconds d ++ [')']

/-- The section says that its query succeeded. -/
def SaysOk (part : List Line) : Prop := ∃ line, part[4]? = some line ∧ "Status: OK".toList <+: line

theorem getLast?_slowestText {value : List Char} (h : slowestText results summary = .ok value) :
    ∃ c, value.getLast? = some c ∧ isBlank c = false := by
  unfold slowestText at h
  split at h
  · obtain ⟨place, _, h⟩ := exists_of_bind h
    cases h
    exact ⟨')', List.getLast?_concat, by decide⟩
  · cases h
    exact ⟨'e', by decide, by decide⟩

/-- The line about the slowest query is the sixth of the figures. -/
theorem executiveSummary_slowest {top : List Line}
    (h : executiveSummary results summary = .ok top) :
    ∃ value, slowestText results summary = .ok value ∧ top.length = 10 ∧
      top[8]? = some (slowestLine value) := by
  obtain ⟨value, hvalue, h⟩ := exists_of_bind h
  obtain ⟨rows, hrows, h⟩ := exists_of_bind h
  cases h
  obtain ⟨width, hwidths⟩ := exists_columnWidths_figures value summary
  obtain ⟨c, hlast, hblank⟩ := getLast?_slowestText hvalue
  have hline : alignRow [21, width] ["Slowest query:".toList, value] = slowestLine value :=
    alignRow_pair hlast hblank 21 width _
  refine ⟨value, hvalue, ?_⟩
  rw [(alignRows_iff.mp hrows).2, hwidths, ← hline]
  exact ⟨rfl, rfl⟩

/-- A report is sixteen lines for the header and the figures, and then the sections. -/
theorem reportLines_parts {lines : List Line}
    (h : reportLines clock results summary includeActual = .ok lines) :
    ∃ top parts value, lines = top ++ parts.flatten ∧ top.length = 16 ∧
      top[14]? = some (slowestLine value) ∧ slowestText results summary = .ok value ∧
      results.mapM querySection = .ok parts := by
  obtain ⟨now, _, h⟩ := exists_of_bind h
  obtain ⟨top, htop, h⟩ := exists_of_bind h
  obtain ⟨queries, hqueries, h⟩ := exists_of_bind h
  obtain ⟨parts, hparts, hflat⟩ := exists_of_bind hqueries
  cases h
  cases hflat
  obtain ⟨value, hvalue, hlength, hline⟩ := executiveSummary_slowest htop
  have hheader : (header now summary includeActual).length = 6 := rfl
  refine ⟨_, parts, value, rfl, by simp [hheader, hlength], ?_, hvalue, hparts⟩
  rw [List.getElem?_append_right (by simp [hheader]), hheader]
  exact hline

theorem querySection_lines {r : QueryResult} {part : List Line} (h : querySection r = .ok part) :
    part[2]? = some (titleLine (r.index + 1) r) ∧ part[4]? = some (statusLine r) := by
  rw [querySection_eq] at h
  obtain ⟨place, hplace, h⟩ := exists_of_bind h
  obtain ⟨tables, _, h⟩ := exists_of_bind h
  obtain ⟨_, rfl⟩ := placeNumber_eq_ok_iff.mp hplace
  cases h
  exact ⟨rfl, rfl⟩

theorem statusLine_of_success {r : QueryResult} {d : Duration} (hr : r.isSuccess = true)
    (hd : r.duration = some d) : statusLine r = okLine d := by
  have herror : r.error = none := Option.isNone_iff_eq_none.mp hr
  rw [statusLine, herror, hd]
  rfl

/-- An error is never shown as a success, whatever its message. -/
theorem isSuccess_of_saysOk {r : QueryResult} {part : List Line} (h : querySection r = .ok part)
    (hok : SaysOk part) : r.isSuccess = true := by
  obtain ⟨line, hline, hprefix⟩ := hok
  rw [(querySection_lines h).2, Option.some.injEq] at hline
  subst hline
  cases herror : r.error with
  | none => exact Option.isNone_iff_eq_none.mpr herror
  | some e =>
    rw [statusLine, herror] at hprefix
    obtain ⟨rest, hrest⟩ := hprefix
    simp at hrest

/-- Each result has a section, in the same place. -/
theorem exists_part {parts : List (List Line)} (h : results.mapM querySection = .ok parts)
    {place : Nat} {r : QueryResult} (hr : results[place]? = some r) :
    ∃ part, parts[place]? = some part ∧ querySection r = .ok part := by
  have hall := forall₂_of_mapM h
  have hlt : place < parts.length := by
    rw [← hall.length_eq]
    exact (List.getElem?_eq_some_iff.mp hr).1
  have hget := hall.get (List.getElem?_eq_some_iff.mp hr).1 hlt
  obtain ⟨_, rfl⟩ := List.getElem?_eq_some_iff.mp hr
  exact ⟨parts[place], List.getElem?_eq_getElem hlt, hget⟩

/-! ## The slowest query of a session -/

/-- The value among the figures and the section of the result in the given place name the same
query, and it is the first of the slowest of those whose section says that they succeeded. -/
structure NamedSlowest (results : List QueryResult) (parts : List (List Line)) (value : List Char)
    (place : Nat) (r : QueryResult) (d : Duration) : Prop where
  stands : results[place]? = some r
  success : r.isSuccess = true
  took : r.duration = some d
  value_eq : value = r.request.label.toList ++ " (#".toList ++ number (place + 1) ++ ", ".toList
    ++ seconds d ++ [')']
  shown : ∃ part, parts[place]? = some part ∧ part[2]? = some (titleLine (place + 1) r) ∧
    part[4]? = some (okLine d)
  /-- No other success took longer, and those before it took less. -/
  others : ∀ other x part, results[other]? = some x → parts[other]? = some part → SaysOk part →
    ∃ e, x.duration = some e ∧ part[4]? = some (okLine e) ∧ e.nanoseconds ≤ d.nanoseconds ∧
      (other < place → e.nanoseconds < d.nanoseconds)

/-- A success has a time, and brings it to the figures. -/
theorem exists_countedTime {r : QueryResult} (h : r.Coherent includeActual)
    (hr : r.isSuccess = true) : ∃ d, r.duration = some d ∧ r.countedTime = some d := by
  obtain ⟨_, _, _, _, hsome, _⟩ := h.whole hr
  obtain ⟨d, hd⟩ := Option.isSome_iff_exists.mp hsome
  exact ⟨d, hd, by rw [QueryResult.countedTime, if_pos hr, hd]⟩

theorem of_countedTime {r : QueryResult} {d : Duration} (h : r.countedTime = some d) :
    r.isSuccess = true ∧ r.duration = some d := by
  unfold QueryResult.countedTime at h
  split at h
  · exact ⟨‹_›, h⟩
  · cases h

theorem find?_index {place : Nat} {r : QueryResult}
    (hindex : ∀ (i : Nat) (x : QueryResult), results[i]? = some x → x.index = i)
    (hr : results[place]? = some r) :
    results.find? (·.index == place) = some r := by
  obtain ⟨hlt, hget⟩ := List.getElem?_eq_some_iff.mp hr
  rw [List.find?_eq_some_iff_getElem]
  refine ⟨by simp [hindex place r hr], place, hlt, hget, ?_⟩
  intro i hi
  have hx := hindex i results[i] (List.getElem?_eq_getElem _)
  simp only [hx, Bool.not_eq_eq_eq_not, Bool.not_true, beq_eq_false_iff_ne]
  omega

/-- The slowest query is looked up by its index, which is its place. -/
theorem slowestText_of_first {place : Nat} {r : QueryResult} {d : Duration} {value : List Char}
    (hindex : ∀ (i : Nat) (x : QueryResult), results[i]? = some x → x.index = i)
    (hr : results[place]? = some r)
    (hd : r.duration = some d) (hslowest : summary.slowestQueryIndex = some place)
    (h : slowestText results summary = .ok value) :
    value = r.request.label.toList ++ " (#".toList ++ number (place + 1) ++ ", ".toList
      ++ seconds d ++ [')'] := by
  unfold slowestText at h
  rw [hslowest, Option.bind_some, find?_index hindex hr] at h
  obtain ⟨n, hn, h⟩ := exists_of_bind h
  obtain ⟨_, rfl⟩ := placeNumber_eq_ok_iff.mp hn
  rw [hindex place r hr, hd, Option.getD_some] at h
  cases h
  rfl

theorem namedSlowest_of_first {parts : List (List Line)} {value : List Char} {place : Nat}
    {r : QueryResult} {d : Duration}
    (hindex : ∀ (i : Nat) (x : QueryResult), results[i]? = some x → x.index = i)
    (hcoherent : ∀ x ∈ results, x.Coherent includeActual)
    (hfirst : FirstSlowest results place r d) (hslowest : summary.slowestQueryIndex = some place)
    (hvalue : slowestText results summary = .ok value)
    (hparts : results.mapM querySection = .ok parts) :
    NamedSlowest results parts value place r d where
  stands := hfirst.stands
  success := (of_countedTime hfirst.counted).1
  took := (of_countedTime hfirst.counted).2
  value_eq :=
    slowestText_of_first hindex hfirst.stands (of_countedTime hfirst.counted).2 hslowest hvalue
  shown := by
    obtain ⟨hr, hd⟩ := of_countedTime hfirst.counted
    obtain ⟨part, hpart, hsection⟩ := exists_part hparts hfirst.stands
    obtain ⟨htitle, hstatus⟩ := querySection_lines hsection
    rw [hindex place r hfirst.stands] at htitle
    rw [statusLine_of_success hr hd] at hstatus
    exact ⟨part, hpart, htitle, hstatus⟩
  others other x part hx hpart hok := by
    obtain ⟨part', hpart', hsection⟩ := exists_part hparts hx
    obtain rfl : part' = part := Option.some.inj (hpart'.symm.trans hpart)
    have hsuccess := isSuccess_of_saysOk hsection hok
    have hmem : x ∈ results := List.mem_of_getElem? hx
    obtain ⟨e, he, hcounted⟩ := exists_countedTime (hcoherent x hmem) hsuccess
    refine ⟨e, he, ?_, hfirst.longest x hmem e hcounted, ?_⟩
    · rw [(querySection_lines hsection).2, statusLine_of_success hsuccess he]
    · intro hlt
      have hbefore : x ∈ results.take place := by
        refine List.mem_of_getElem? (i := other) ?_
        rw [List.getElem?_take_of_lt hlt, hx]
      exact hfirst.earliest x hbefore e hcounted

/-- A report is written of the results of a session exactly when nothing stands in its way: the
clock, a place that cannot be counted, or a cell longer than a column may be wide. It then says that
there is no slowest query exactly when no query succeeded. Otherwise it names the label and the
place of the result that the summary has noted, whose own section says that it succeeded, in the
same time. No other section of a success is that of a slower query, and no earlier one that of a
query equally slow. -/
theorem the_figures_name_the_slowest_section {S : Setting} {review : Review}
    (h : Comes S (.ok review)) (clock : Clock) :
    ((∃ lines, reportLines clock review.results review.summary S.includeActual = .ok lines) ↔
      Writable clock review.results review.summary) ∧
    ∀ lines, reportLines clock review.results review.summary S.includeActual = .ok lines →
      ∃ top parts value, lines = top ++ parts.flatten ∧ top.length = 16 ∧
        review.results.mapM querySection = .ok parts ∧ top[14]? = some (slowestLine value) ∧
        (value = "none".toList ↔ ∀ r ∈ review.results, r.isSuccess = false) ∧
        ((review.summary.slowestQueryIndex = none ∧ value = "none".toList) ∨
          ∃ place r d, review.summary.slowestQueryIndex = some place ∧
            NamedSlowest review.results parts value place r d) := by
  refine ⟨exists_reportLines_iff, ?_⟩
  intro lines hlines
  obtain ⟨top, parts, value, hflat, hlength, hline, hvalue, hparts⟩ := reportLines_parts hlines
  obtain ⟨_, _, _, hsummary⟩ := h.exists_stage
  have hcoherent := h.coherent
  refine ⟨top, parts, value, hflat, hlength, hparts, hline, ?_⟩
  cases hslowest : review.summary.slowestQueryIndex with
  | none =>
    have hnone : value = "none".toList := by
      rw [slowestText, hslowest] at hvalue
      cases hvalue
      rfl
    have huncounted := (Summary.slowestQueryIndex_eq_none_iff hsummary).mp hslowest
    have hfailed : ∀ r ∈ review.results, r.isSuccess = false := by
      intro r hr
      rw [← Bool.not_eq_true]
      intro hsuccess
      obtain ⟨d, _, hcounted⟩ := exists_countedTime (hcoherent r hr) hsuccess
      rw [huncounted r hr] at hcounted
      cases hcounted
    exact ⟨⟨fun _ => hfailed, fun _ => hnone⟩, .inl ⟨rfl, hnone⟩⟩
  | some index =>
    obtain ⟨place, r, d, hfirst, rfl⟩ := (Summary.slowestQueryIndex_iff hsummary).mp hslowest
    rw [h.index_eq hfirst.stands] at hslowest ⊢
    have hnamed := namedSlowest_of_first (fun i x => h.index_eq) hcoherent hfirst hslowest
      hvalue hparts
    have hsuccess := hnamed.success
    have hmem : r ∈ review.results := List.mem_of_getElem? hfirst.stands
    refine ⟨⟨?_, ?_⟩, .inr ⟨place, r, d, rfl, hnamed⟩⟩
    · intro hnone
      have hlast := congrArg List.getLast? (hnamed.value_eq.symm.trans hnone)
      rw [List.getLast?_concat] at hlast
      exact absurd hlast (by decide)
    · intro hfailed
      rw [hfailed r hmem] at hsuccess
      cases hsuccess

/-- Two queries that took equally long, behind one that is blocked. -/
theorem the_first_of_two_equally_slow_is_named :
    let requests : List Request :=
      [ { id := "a", label := "drop", sql := "DROP TABLE t" },
        { id := "b", label := "one", sql := "SELECT * FROM t" },
        { id := "c", label := "two", sql := "SELECT * FROM t" } ]
    let collaborator : Collaborator := fun
      | .plan _ _ => ⟨12, .answer "-> Table scan on t  (cost=1.00 rows=10)"⟩
      | .columns _ => ⟨1, .answer []⟩
      | .indexes _ => ⟨1, .answer []⟩
    let S : Setting :=
      { options := {}, database := .of collaborator, includeActual := false, requests }
    ∃ review lines, Comes S (.ok review) ∧
      reportLines (.ok 0) review.results review.summary S.includeActual = .ok lines ∧
      review.summary.slowestQueryIndex = some 1 ∧
      lines[14]? = some "Slowest query:         one (#2, 0.0140s)".toList := by
  intro requests collaborator S
  have hids : ∀ r ∈ requests, isBlankText r.id = false := by decide +kernel
  have hv : validate S.options.maxQueries S.requests = .ok () := by
    simp only [requests, List.forall_mem_cons] at hids
    simp [S, requests, validate, checkIds, hids]
  let results := (analyzeAll S.options collaborator false S.requests).map (·.result)
  have htime : totalNanoseconds results < Duration.limit := by decide +kernel
  obtain ⟨summary, hcomes⟩ : ∃ summary, Comes S (.ok ⟨results, summary⟩) :=
    exists_comes_review hv rfl htime
  have hwritten : ((Summary.ofResults results).bind fun summary =>
      reportLines (.ok 0) results summary false).isOk = true := by
    decide +kernel
  have hslowest : (Summary.ofResults results).map (·.slowestQueryIndex) = .ok (some 1) := by
    decide +kernel
  obtain ⟨_, _, _, hsummary⟩ := hcomes.exists_stage
  rw [show Summary.ofResults results = .ok summary from hsummary] at hslowest
  have hindex : summary.slowestQueryIndex = some 1 := Except.ok.inj hslowest
  obtain ⟨lines, hlines⟩ := hcomes.exists_of_isOk hwritten
  obtain ⟨_, hreport⟩ := the_figures_name_the_slowest_section hcomes (.ok 0)
  obtain ⟨top, parts, value, hflat, hlength, _, hline, _, hnamed⟩ := hreport lines hlines
  refine ⟨⟨results, summary⟩, lines, hcomes, hlines, hindex, ?_⟩
  rw [hflat, List.getElem?_append_left (by omega), hline]
  rcases hnamed with ⟨hnone, _⟩ | ⟨place, r, d, hsome, hnamed⟩
  · rw [hindex] at hnone
    cases hnone
  · rw [hindex] at hsome
    cases hsome
    have hone : (results[1]?.map fun r => (r.request.label, r.duration))
        = some ("one", some (.ofMillis 14)) := by
      decide +kernel
    rw [hnamed.stands] at hone
    have htook := hnamed.took
    simp only [Option.map_some, Option.some.injEq, Prod.mk.injEq] at hone
    rw [hone.2] at htook
    cases htook
    rw [hnamed.value_eq, hone.1]
    decide +kernel

/-- A database that answers at once. -/
def instant : Collaborator
  | .plan _ _ => ⟨0, .answer "-> A"⟩
  | .columns _ => ⟨0, .answer []⟩
  | .indexes _ => ⟨0, .answer []⟩

/-- What comes of a query with the given label there. -/
def instantResult (label : String) : QueryResult :=
  let plan := Plan.Forest.parse .estimated "-> A"
  .success 0 { id := "a", label, sql := "SELECT * FROM t" } ["t"]
    ⟨plan, none, [⟨"t", [], []⟩], plan.warnings⟩ (.ofMillis 0)

theorem analyzeAll_instant {label : String} (hlabel : isBlankText label = false) :
    (analyzeAll {} instant false [{ id := "a", label, sql := "SELECT * FROM t" }]).map (·.result)
      = [instantResult label] := by
  have hsafe : Statement.classify ({} : Options).policy "SELECT * FROM t" = .safe := by
    decide +kernel
  have htables : Statement.tableNames "SELECT * FROM t" = ["t"] := by decide +kernel
  have hadmit : admit? ({} : Options).policy "SELECT * FROM t" = .ok ["t"] := by
    rw [admit?, hsafe, htables]
  have hunlimited : ({} : Options).timeLimit? = none := by simp [Options.timeLimit?]
  have hanalyze : (analyze {} instant false 0 { id := "a", label, sql := "SELECT * FROM t" }).result
      = instantResult label := by
    simp only [analyze, hadmit, hunlimited, askAll, askActual, askSchemas, askSchema, ask, bind,
      pure, Dialogue.bind, Dialogue.run, instant, exceeded?, Option.filter_none,
      Bool.false_eq_true, if_false, resultOf, Nat.add_zero, instantResult]
  simp [analyzeAll, labelled, Request.withDefaultLabel, hlabel, hanalyze]

/-- A session with one query that succeeds at once. -/
def instantSession (label : String) : Setting where
  options := {}
  database := .of instant
  includeActual := false
  requests := [{ id := "a", label, sql := "SELECT * FROM t" }]

theorem comes_instantSession {label : String} (hlabel : isBlankText label = false) :
    ∃ summary, Comes (instantSession label) (.ok ⟨[instantResult label], summary⟩) := by
  have hid : isBlankText "a" = false := by decide +kernel
  have hv : validate (instantSession label).options.maxQueries (instantSession label).requests
      = .ok () := by
    simp [instantSession, validate, checkIds, hid]
  have hzero : totalNanoseconds [instantResult label] = 0 := rfl
  have htime : totalNanoseconds [instantResult label] < Duration.limit := by
    rw [hzero]
    decide
  have hresults := analyzeAll_instant hlabel
  rw [← hresults] at htime ⊢
  exact exists_comes_review hv rfl htime

/-- The label is a part of the figures, so it must not be longer than a column may be wide. -/
theorem length_label_le {label : String} {summary : Summary}
    (h : Comes (instantSession label) (.ok ⟨[instantResult label], summary⟩))
    (hwritable : Writable clock [instantResult label] summary) :
    label.toList.length ≤ maxWidth := by
  obtain ⟨_, _, _, hsummary⟩ := h.exists_stage
  have hcounted : (instantResult label).countedTime = some (.ofMillis 0) := rfl
  have hfirst : FirstSlowest [instantResult label] 0 (instantResult label) (.ofMillis 0) := by
    refine ⟨rfl, hcounted, ?_, by rintro x ⟨⟩⟩
    intro x hx e he
    rw [List.mem_singleton.mp hx, hcounted] at he
    rw [Option.some.inj he]
  have hslowest := (Summary.slowestQueryIndex_iff hsummary).mpr ⟨0, _, _, hfirst, rfl⟩
  obtain ⟨value, hvalue, hfits⟩ := hwritable.figures
  have hnamed := slowestText_of_first (fun i x => h.index_eq) hfirst.stands rfl hslowest hvalue
  have hcell : value.length ≤ maxWidth :=
    hfits ["Slowest query:".toList, value] (by simp [figures]) value (by simp)
  refine Nat.le_trans ?_ hcell
  rw [hnamed]
  simp only [List.length_append, Nat.add_assoc]
  exact Nat.le_add_right _ _

/-- A success whose label is longer than a column may be wide leaves its session without a
report. -/
theorem a_label_too_long_leaves_no_report :
    let label := String.ofList (List.replicate 65536 'x')
    ∃ review, Comes (instantSession label) (.ok review) ∧
      (∃ r ∈ review.results, r.isSuccess = true ∧ r.request.label = label) ∧
      ¬∃ lines, reportLines (.ok 0) review.results review.summary false = .ok lines := by
  have hlength : (String.ofList (List.replicate 65536 'x')).toList.length = 65536 := by
    rw [String.toList_ofList, List.length_replicate]
  have hseen : isBlankText (String.ofList (List.replicate 65536 'x')) = false := by
    have hx : isBlank 'x' = false := by decide
    rw [isBlankText, String.toList_ofList, List.replicate_succ, allBlank, List.all_cons, hx,
      Bool.false_and]
  obtain ⟨summary, hcomes⟩ := comes_instantSession hseen
  refine ⟨_, hcomes, ⟨_, List.mem_singleton_self _, rfl, rfl⟩, ?_⟩
  intro hlines
  have hle := length_label_le hcomes (exists_reportLines_iff.mp hlines)
  rw [hlength] at hle
  exact absurd hle (by decide)

end QueryReview.Report
