-- Answers that are read back by their caller. Whatever mode a session is run in and whatever the
-- database replies, the answer is read back as it was sent, unless a measured plan in it has a time
-- that is not finite. One such time, and no part of the answer is read.
import QueryReview.Proofs.Session.Totals
import QueryReview.Proofs.Time.Seconds
import QueryReview.Proofs.Wire.Plans
import QueryReview.Proofs.Wire.Tables

namespace QueryReview.Session

open Dialogue
open QueryReview.Plan (Forest Mode)

variable {Given : (call : Call) → call.Answer → Prop} {S : Setting} {es : List Exchange}

/-! ## Where results come from -/

/-- The plan was read from a text that was given for it. -/
def ReadFrom (Given : (call : Call) → call.Answer → Prop) (mode : Mode) (sql : String)
    (plan : Forest) : Prop :=
  ∃ text : String, Given (.plan mode sql) text ∧ plan = .parse mode text

/-- All that a result shows of the database was given for it. -/
structure QueryResult.Told (Given : (call : Call) → call.Answer → Prop) (r : QueryResult) :
    Prop where
  estimated : ∀ plan ∈ r.estimated, ReadFrom Given .estimated r.request.sql plan
  actual : ∀ plan ∈ r.actual, ReadFrom Given .actual r.request.sql plan
  records : ∀ schema ∈ r.schemas, TrueRecord Given schema

theorem readFrom_askActual {sql : String} {includeActual : Bool} {actual : Option Forest}
    (h : Learns Given (askActual sql includeActual) actual) :
    ∀ plan ∈ actual, ReadFrom Given .actual sql plan := by
  cases includeActual with
  | false =>
    cases h
    rintro plan ⟨⟩
  | true =>
    cases h with
    | ask hgiven hdone =>
      cases hdone
      rintro plan ⟨⟩
      exact ⟨_, hgiven, rfl⟩

theorem told_askAll {index : Nat} {request : Request} {tables : List String} {includeActual : Bool}
    {fetched : Fetched} {duration : Time.Duration}
    (h : Learns Given (askAll request.sql tables includeActual) fetched) :
    (QueryResult.success index request tables fetched duration).Told Given := by
  have hrecords := trueRecord_askAll h
  obtain ⟨text, htext, h⟩ := Learns.of_bind h
  obtain ⟨actual, hactual, h⟩ := Learns.of_bind h
  obtain ⟨_, _, h⟩ := Learns.of_bind h
  cases h
  cases htext with
  | ask hgiven hdone =>
    cases hdone
    refine ⟨?_, readFrom_askActual hactual, hrecords⟩
    rintro plan ⟨⟩
    exact ⟨_, hgiven, rfl⟩

theorem told_failed (index : Nat) (request : Request) (tables : List String) (e : QueryError) :
    (QueryResult.failed index request tables e).Told Given where
  estimated := by rintro plan ⟨⟩
  actual := by rintro plan ⟨⟩
  records := fun _ hs => absurd hs List.not_mem_nil

theorem Fate.told {index : Nat} {request : Request} {e : TaskEnd}
    (h : Fate S index request es e) : (e.result index request).Told (GivenIn es) := by
  cases h with
  | refused _ => exact told_failed index request [] _
  | fetched _ hends hres =>
    rw [hres]
    unfold resultOf
    split
    · rename_i fetched hend
      obtain rfl := hend
      exact told_askAll (.of_finished hends)
    all_goals exact told_failed index request _ _

/-- The database may answer the call so. -/
def Database.Gives (database : Database) (call : Call) (answer : call.Answer) : Prop :=
  ∃ reply, database call reply ∧ reply.outcome = .answer answer

theorem QueryResult.Told.imp {Given' : (call : Call) → call.Answer → Prop} {r : QueryResult}
    (h : r.Told Given) (himp : ∀ call answer, Given call answer → Given' call answer) :
    r.Told Given' where
  estimated plan hplan :=
    have ⟨text, hgiven, heq⟩ := h.estimated plan hplan
    ⟨text, himp _ _ hgiven, heq⟩
  actual plan hplan :=
    have ⟨text, hgiven, heq⟩ := h.actual plan hplan
    ⟨text, himp _ _ hgiven, heq⟩
  records schema hschema :=
    have ⟨hcolumns, hindexes⟩ := h.records schema hschema
    ⟨himp _ _ hcolumns, himp _ _ hindexes⟩

theorem Comes.told {review : Review} (h : Comes S (.ok review)) :
    ∀ r ∈ review.results, r.Told S.database.Gives := by
  intro r hr
  obtain ⟨place, hplace⟩ := List.mem_iff_getElem?.mp hr
  obtain ⟨s, request, e, hs, hfate, rfl⟩ := h.exists_fate hplace
  refine hfate.told.imp ?_
  rintro call answer ⟨reply, hmem, hanswer⟩
  obtain ⟨p, hp, heq⟩ := List.mem_map.mp hmem
  have hgiven := hs.given p (List.mem_filter.mp hp).1
  rw [heq] at hgiven
  exact ⟨reply, hgiven, hanswer⟩

end QueryReview.Session

namespace QueryReview.Wire

open Session
open QueryReview.Json (member? setMember)
open QueryReview.Plan (Forest Step Mode)
open QueryReview.Service (Answer)

/-! ## Tables -/

section
variable {α : Type} {value : Catalog.TableSchema → α} {write : α → Json} {read : Json → Option α}
  {schemas : List Catalog.TableSchema}

theorem byTable_eq_entriesOf :
    byTable (fun s => write (value s)) schemas
      = (entriesOf value schemas).map fun e => (e.1, write e.2) := by
  unfold byTable entriesOf
  induction schemas using List.reverseRecOn with
  | nil => rfl
  | append_singleton schemas s ih =>
    rw [List.foldl_concat, List.foldl_concat, ih]
    exact setMember_map s.table (value s) _

theorem nodup_entriesOf : ((entriesOf value schemas).map Prod.fst).Nodup := by
  unfold entriesOf
  induction schemas using List.reverseRecOn with
  | nil => exact List.nodup_nil
  | append_singleton schemas s ih =>
    rw [List.foldl_concat]
    exact nodup_setEntry ih s.table (value s)

theorem exists_of_mem_entriesOf {e : String × α} (h : e ∈ entriesOf value schemas) :
    ∃ s ∈ schemas, e.2 = value s := by
  unfold entriesOf at h
  induction schemas using List.reverseRecOn with
  | nil => cases h
  | append_singleton schemas s ih =>
    rw [List.foldl_concat] at h
    rcases mem_setEntry h with h | h
    · obtain ⟨s', hs', heq⟩ := ih h
      exact ⟨s', List.mem_append_left _ hs', heq⟩
    · exact ⟨s, List.mem_append_right _ (List.mem_singleton_self s), h⟩

theorem readEntries_byTable (h : ∀ s ∈ schemas, read (write (value s)) = some (value s)) :
    readEntries read (.object (byTable (fun s => write (value s)) schemas))
      = some (entriesOf value schemas) := by
  rw [byTable_eq_entriesOf]
  refine readEntries_map (fun e he => ?_) nodup_entriesOf
  obtain ⟨s, hs, heq⟩ := exists_of_mem_entriesOf he
  rw [heq]
  exact h s hs

end

/-! ## Results -/

def PlacesFit (parts : List Catalog.IndexPart) : Prop := ∀ part ∈ parts, part.place ≤ max32

/-- The numbers of a result can be written, but for the times over all loops. -/
structure WritableResult (r : QueryResult) : Prop where
  estimated : ∀ plan ∈ r.estimated, Writable plan
  actual : ∀ plan ∈ r.actual, Writable plan
  places : ∀ schema ∈ r.schemas, PlacesFit schema.indexes

theorem nullable_seconds (duration : Option Time.Duration) :
    nullable readFloat (.ofOption (fun d => .ofFloat d.seconds) duration)
      = some (duration.map (·.seconds)) := by
  have hmap : Json.ofOption (fun d : Time.Duration => .ofFloat d.seconds) duration
      = .ofOption .ofFloat (duration.map (·.seconds)) := by
    cases duration <;> rfl
  have hfinite : ∀ x ∈ duration.map (·.seconds), x.isFinite = true := by
    intro x hx
    obtain ⟨d, _, rfl⟩ := Option.map_eq_some_iff.mp hx
    exact Time.isFinite_seconds d
  rw [hmap, nullable_float hfinite]

theorem nullable_forest {plan : Option Forest} (h : ∀ f ∈ plan, Writable f) :
    nullable readForest (.ofOption ofForest plan)
      = if plan.all Forest.totalsAreFinite then some plan else none := by
  have hread : nullable readForest (.ofOption ofForest plan)
      = if plan.all Forest.totalsAreFinite then some (plan.map id) else none :=
    nullable_ofOption_ite (fun _ _ => Json.noConfusion) fun f hf => readForest_ofForest (h f hf)
  rwa [Option.map_id] at hread

theorem nullable_error (text : QueryError → String) (e : Option QueryError) :
    nullable readString (.ofOption (fun e => .string (text e)) e) = some (e.map text) := by
  cases e <;> rfl

/-- The view of a result is read back exactly when the times of its measured plan are finite. -/
theorem readResultView_ofResult {r : QueryResult} (h : WritableResult r)
    (hestimated : r.estimated.all Forest.totalsAreFinite = true) :
    readResultView (ofResult r)
      = if r.actual.all Forest.totalsAreFinite then some (.of r) else none := by
  have hexplain := (nullable_forest h.estimated).trans (if_pos hestimated)
  have hcolumns : ∀ s ∈ r.schemas, readList readColumn (ofColumns s.columns) = some s.columns :=
    fun s _ => readList_map fun c _ => readColumn_ofColumn c
  have hindexes : ∀ s ∈ r.schemas, readList readIndexPart (ofIndexes s.indexes) = some s.indexes :=
    fun s hs => readList_map fun p hp => readIndexPart_ofIndexPart (h.places s hs p hp)
  refine bind_object ?_
  refine bind_required rfl rfl ?_
  refine bind_required rfl rfl ?_
  refine bind_required rfl rfl ?_
  refine bind_required rfl (readVerdict_ofVerdict r.verdict) ?_
  refine bind_optional rfl (nullable_seconds r.duration) ?_
  refine bind_optional rfl hexplain ?_
  refine bind_optional_ite rfl (nullable_forest h.actual) ?_
  refine bind_required rfl (readList_ofStrings r.tables) ?_
  refine bind_required rfl (readEntries_byTable hcolumns) ?_
  refine bind_required rfl (readEntries_byTable hindexes) ?_
  refine bind_required rfl (readList_map fun w _ => readWarning_ofWarning w) ?_
  refine bind_optional rfl (nullable_error _ r.error) ?_
  exact bind_optional rfl (nullable_error _ r.error) rfl

/-! ## Summaries -/

theorem readSigned64_of_le {n : Int} (hlow : -Int.pow 2 63 ≤ n) (hhigh : n ≤ Int.pow 2 63 - 1) :
    readSigned64 (.integer n) = some n := if_pos ⟨hlow, hhigh⟩

/-- The numbers of a summary fit in their types. -/
structure WritableSummary (s : Summary) : Prop where
  total : s.totalQueries ≤ max64
  successful : s.successfulQueries ≤ max64
  failed : s.failedQueries ≤ max64
  costLow : -Int.pow 2 63 ≤ s.totalCost
  costHigh : s.totalCost ≤ Int.pow 2 63 - 1
  slowest : ∀ index ∈ s.slowestQueryIndex, index ≤ max64

theorem readSummaryView_ofSummary {s : Summary} (h : WritableSummary s) :
    readSummaryView (ofSummary s) = some (.of s) := by
  have htime := readFloat_of_isFinite (Time.isFinite_seconds s.totalExecutionTime)
  refine bind_object ?_
  refine bind_required rfl (readNat_ofNat h.total) ?_
  refine bind_required rfl (readNat_ofNat h.successful) ?_
  refine bind_required rfl (readNat_ofNat h.failed) ?_
  refine bind_required rfl htime ?_
  refine bind_required rfl (readSigned64_of_le h.costLow h.costHigh) ?_
  refine bind_optional rfl (nullable_nat h.slowest) ?_
  exact bind_required rfl rfl rfl

/-! ## Answers -/

theorem readAnswerView_ofAnswer {a : Answer} (hr : ∀ r ∈ a.results, WritableResult r)
    (he : ∀ r ∈ a.results, r.estimated.all Forest.totalsAreFinite = true)
    (hs : ∀ s ∈ a.summary, WritableSummary s) :
    readAnswerView (ofAnswer a)
      = if a.results.all (·.actual.all Forest.totalsAreFinite) then some (.of a) else none := by
  have hqueries : readList readResultView (.array (a.results.map ofResult))
      = if a.results.all (·.actual.all Forest.totalsAreFinite) then some (a.results.map .of)
        else none :=
    readList_map_ite fun r h => readResultView_ofResult (hr r h) (he r h)
  have hsummary : nullable readSummaryView (.ofOption ofSummary a.summary)
      = some (a.summary.map .of) :=
    nullable_ofOption (fun _ _ => Json.noConfusion) fun s h => readSummaryView_ofSummary (hs s h)
  refine bind_object ?_
  refine bind_required rfl rfl ?_
  refine bind_required rfl rfl ?_
  refine bind_required_ite rfl hqueries ?_
  refine bind_optional rfl hsummary ?_
  exact bind_optional rfl (nullable_string a.report) rfl

/-! ## Sessions -/

/-- The numbers in the answer to a call fit in their types, and so does the length of a text. -/
def FitsTypes : (call : Call) → call.Answer → Prop
  | .plan _ _, text => String.length text ≤ max64
  | .columns _, _ => True
  | .indexes _, parts => PlacesFit parts

/-- A session whose requests can be counted, with a database whose answers fit in their types. -/
structure Typed (S : Setting) : Prop where
  requests : S.requests.length ≤ max64
  answers : ∀ call answer, S.database.Gives call answer → FitsTypes call answer

section
variable {Given : (call : Call) → call.Answer → Prop} {r : QueryResult}

theorem writable_of_readFrom {mode : Mode} {sql : String} {plan : Forest}
    (hfits : ∀ call answer, Given call answer → FitsTypes call answer)
    (h : ReadFrom Given mode sql plan) : Writable plan := by
  obtain ⟨text, hgiven, rfl⟩ := h
  exact writable_parse mode (hfits _ _ hgiven)

theorem writableResult_of_told (hfits : ∀ call answer, Given call answer → FitsTypes call answer)
    (h : r.Told Given) : WritableResult r where
  estimated plan hplan := writable_of_readFrom hfits (h.estimated plan hplan)
  actual plan hplan := writable_of_readFrom hfits (h.actual plan hplan)
  places schema hschema := hfits _ _ (h.records schema hschema).2

theorem totalsAreFinite_estimated (h : r.Told Given) :
    r.estimated.all Forest.totalsAreFinite = true := by
  rw [Option.all_eq_true]
  intro plan hplan
  obtain ⟨text, _, rfl⟩ := h.estimated plan hplan
  exact totalsAreFinite_parse_estimated text

end

theorem length_results_le {S : Setting} {review : Review} (h : Comes S (.ok review)) :
    review.results.length ≤ S.requests.length := by
  obtain ⟨s, hs, hresults, _⟩ := h.exists_stage
  have hqueries : S.queries.length = S.requests.length := by simp [Setting.queries, labelled]
  rw [← hresults, ← hqueries]
  exact hs.ordered.joined.trans hs.ordered.spawned

theorem writableSummary_of_comes {S : Setting} {review : Review} (h : Comes S (.ok review))
    (hrequests : S.requests.length ≤ max64) : WritableSummary review.summary := by
  obtain ⟨_, _, _, hsummary⟩ := h.exists_stage
  have hlength := (length_results_le h).trans hrequests
  obtain ⟨htotal, hsuccessful, hfailed⟩ := Summary.counts hsummary
  have hcost := Decimal.truncateToSigned64_bounds ((costs review.results).foldl (· + ·) 0.0)
  rw [← Summary.totalCost_eq hsummary] at hcost
  refine ⟨?_, ?_, ?_, hcost.1, hcost.2, fun index hindex => ?_⟩
  · rwa [htotal]
  · rw [hsuccessful]
    exact List.countP_le_length.trans hlength
  · rw [hfailed]
    exact List.countP_le_length.trans hlength
  · obtain ⟨place, r, _, hfirst, rfl⟩ := (Summary.slowestQueryIndex_iff hsummary).mp hindex
    rw [h.index_eq hfirst.stands]
    exact (List.getElem?_eq_some_iff.mp hfirst.stands).1.le.trans hlength

theorem readAnswerView_of_comes {S : Setting} (hS : Typed S) {review : Review}
    (h : Comes S (.ok review)) {clock : Report.Clock} {answer : Answer}
    (ha : Answer.reviewed clock S.includeActual review = .ok answer) :
    readAnswerView (ofAnswer answer)
      = if answer.results.all (·.actual.all Forest.totalsAreFinite) then some (.of answer)
        else none := by
  have htold := h.told
  unfold Answer.reviewed at ha
  split at ha
  · cases ha
  · cases ha
    refine readAnswerView_ofAnswer (fun r hr => writableResult_of_told hS.answers (htold r hr))
      (fun r hr => totalsAreFinite_estimated (htold r hr)) ?_
    rintro summary ⟨⟩
    exact writableSummary_of_comes h hS.requests

/-- A plan that is read from a text, in either mode, holds finite numbers only, but perhaps for the
times over all loops. Exactly when these are finite too is it read back from its document, as it was,
and else not at all. An estimated plan has no such times. So an answer that turns a request down is
read back as it was sent, and the answer to a session is, whatever the database replies, exactly when
the times in its measured plans are finite. -/
theorem what_is_sent_is_read_back_when_its_times_are_finite (mode : Mode) {text : String}
    (htext : text.length ≤ max64) :
    let plan := Forest.parse mode text
    (∀ step ∈ plan.steps, step.OfText mode text) ∧
    readForest (ofForest plan) = (if plan.totalsAreFinite then some plan else none) ∧
    (mode = .estimated → plan.totalsAreFinite = true) ∧
    (∀ message, readAnswerView (ofAnswer (.rejected message)) = some (.of (.rejected message))) ∧
    ∀ S, Typed S → ∀ review, Comes S (.ok review) → ∀ clock answer,
      Answer.reviewed clock S.includeActual review = .ok answer →
      readAnswerView (ofAnswer answer)
        = if answer.results.all (·.actual.all Forest.totalsAreFinite) then some (.of answer)
          else none := by
  intro plan
  refine ⟨Forest.ofText_of_mem_steps, readForest_ofForest (writable_parse mode htext), ?_, ?_, ?_⟩
  · rintro rfl
    exact totalsAreFinite_parse_estimated text
  · intro message
    exact readAnswerView_ofAnswer (fun r hr => absurd hr List.not_mem_nil)
      (fun r hr => absurd hr List.not_mem_nil) (by rintro summary ⟨⟩)
  · intro S hS review h clock answer ha
    exact readAnswerView_of_comes hS h ha

/-- A query that took six milliseconds over three loops. -/
theorem a_measured_query_is_read_back :
    let text := "-> A  (actual time=1..2 rows=1 loops=3)"
    let request : Request := { id := "a", label := "a", sql := "SELECT * FROM t" }
    let collaborator : Collaborator := fun
      | .plan _ _ => ⟨2, .answer text⟩
      | .columns _ => ⟨1, .answer []⟩
      | .indexes _ => ⟨1, .answer [⟨"PRIMARY", "BTREE", true, some "c", 1⟩]⟩
    let S : Setting :=
      { options := {}, database := .of collaborator, includeActual := true, requests := [request] }
    text.length ≤ max64 ∧ Typed S ∧
    readForest (ofForest (.parse .actual text)) = some (.parse .actual text) ∧
    ∃ review answer, Comes S (.ok review) ∧ Answer.reviewed (.ok 0) true review = .ok answer ∧
      readAnswerView (ofAnswer answer) = some (.of answer) := by
  intro text request collaborator S
  have htext : text.length ≤ max64 := by decide +kernel
  have hS : Typed S := by
    refine ⟨by decide +kernel, ?_⟩
    rintro call answer ⟨reply, rfl, hanswer⟩
    cases call with
    | plan mode sql =>
      cases hanswer
      exact htext
    | columns table => trivial
    | indexes table =>
      cases hanswer
      exact List.forall_mem_singleton.mpr (by decide)
  obtain ⟨_, hplan, _, _, hanswers⟩ :=
    what_is_sent_is_read_back_when_its_times_are_finite .actual htext
  have hfinite : (Forest.parse .actual text).totalsAreFinite = true := by decide +kernel
  rw [if_pos hfinite] at hplan
  have hid : isBlankText "a" = false := by decide +kernel
  have hv : validate S.options.maxQueries S.requests = .ok () := by
    simp [S, request, validate, checkIds, hid]
  let results := (analyzeAll S.options collaborator true S.requests).map (·.result)
  have htime : totalNanoseconds results < Time.Duration.limit := by decide +kernel
  obtain ⟨summary, hcomes⟩ : ∃ summary, Comes S (.ok ⟨results, summary⟩) :=
    exists_comes_review hv rfl htime
  have hreported : ((Summary.ofResults results).bind fun summary =>
      Report.report (.ok 0) results summary true).isOk = true := by
    decide +kernel
  obtain ⟨report, hreport⟩ := hcomes.exists_of_isOk hreported
  have hanswer : Answer.reviewed (.ok 0) true ⟨results, summary⟩ = .ok
      { success := true, message := Service.countMessage summary, results, summary := some summary,
        report := some report } := by
    simp [Answer.reviewed, hreport]
  have hmeasured : results.all (·.actual.all Forest.totalsAreFinite) = true := by decide +kernel
  have hread := hanswers S hS _ hcomes _ _ hanswer
  rw [if_pos hmeasured] at hread
  exact ⟨htext, hS, hplan, _, _, hcomes, hanswer, hread⟩

/-- Ten loops of a time that is nearly as large as a double can be. Both times were read as finite
numbers, and the time over all loops is not one. -/
theorem an_infinite_time_is_not_read_back :
    let plan := Forest.parse .actual "-> A  (actual time=1..1e308 rows=1 loops=10)"
    plan.steps.map (fun step => step.timing.map fun t =>
      (t.first.isFinite, t.last.isFinite, t.total.isFinite)) = [some (true, true, false)] ∧
    readForest (ofForest plan) = none := by
  intro plan
  have hinfinite : plan.totalsAreFinite = false := by decide +kernel
  refine ⟨by decide +kernel, ?_⟩
  rw [readForest_ofForest (writable_parse .actual (by decide +kernel)), hinfinite]
  rfl

end QueryReview.Wire
