-- What a caller sees of the tables of a query. The records of the tables go into two objects, under
-- the names of the tables, and an object that is given a name twice keeps one value of the two.
-- None is lost, as a statement lists each of its tables once, and the records that are fetched
-- follow the list one by one, whatever the database answers.
import QueryReview.Proofs.Session.Outcome
import QueryReview.Proofs.Statement.TableNames
import QueryReview.Proofs.Wire.Fields

namespace QueryReview.Session

open Dialogue

variable {α β : Type} {Given : (call : Call) → call.Answer → Prop} {S : Setting} {s : Stage}
  {es : List Exchange}

/-! ## What is learned from answers -/

/-- Answers that were given bring the dialogue to this value. -/
inductive Dialogue.Learns (Given : (call : Call) → call.Answer → Prop) : Dialogue α → α → Prop
  | done {a : α} : Learns Given (.done a) a
  | ask {call : Call} {next : call.Answer → Dialogue α} {answer : call.Answer} {a : α} :
      Given call answer → Learns Given (next answer) a → Learns Given (.ask call next) a

theorem Dialogue.Learns.of_bind {d : Dialogue α} {f : α → Dialogue β} {b : β}
    (h : Learns Given (d.bind f) b) : ∃ a, Learns Given d a ∧ Learns Given (f a) b := by
  induction d with
  | done a => exact ⟨a, .done, h⟩
  | ask call next ih =>
    cases h with
    | ask hgiven hrest =>
      obtain ⟨a, ha, hb⟩ := ih _ hrest
      exact ⟨a, .ask hgiven ha, hb⟩

/-- The answer stands in one of the exchanges. -/
def GivenIn (es : List Exchange) (call : Call) (answer : call.Answer) : Prop :=
  ∃ reply : Reply call.Answer, ⟨call, reply⟩ ∈ es ∧ reply.outcome = .answer answer

theorem Dialogue.Learns.of_heard {d rest : Dialogue α} {heard : List Exchange} {a : α}
    (h : Learns (GivenIn es) rest a) (hh : Heard d heard rest) (hes : ∀ e ∈ heard, e ∈ es) :
    Learns (GivenIn es) d a := by
  induction hh with
  | nothing => exact h
  | answer _ ho ih =>
    refine ih (.ask ⟨_, hes _ (by simp), ho⟩ h) fun e he => ?_
    exact hes e (List.mem_append_left _ he)

theorem Dialogue.Learns.of_finished {limit? : Option Nat} {d : Dialogue α} {t : Nat} {a : α}
    (h : Ends limit? d es t (.finished a)) : Learns (GivenIn es) d a := by
  cases h with
  | finished hh _ => exact Learns.of_heard .done hh fun _ he => he

/-! ## The records of tables -/

/-- The record holds the columns and the indexes that were given for its table. -/
def TrueRecord (Given : (call : Call) → call.Answer → Prop) (schema : Catalog.TableSchema) : Prop :=
  Given (.columns schema.table) schema.columns ∧ Given (.indexes schema.table) schema.indexes

theorem trueRecord_askSchema {table : String} {schema : Catalog.TableSchema}
    (h : Learns Given (askSchema table) schema) : TrueRecord Given schema := by
  obtain ⟨columns, hcolumns, h⟩ := Learns.of_bind h
  obtain ⟨indexes, hindexes, h⟩ := Learns.of_bind h
  cases h
  cases hcolumns with
  | ask hgiven hdone =>
    cases hdone
    cases hindexes with
    | ask hgiven' hdone =>
      cases hdone
      exact ⟨hgiven, hgiven'⟩

theorem trueRecord_askSchemas {tables : List String} {schemas : List Catalog.TableSchema}
    (h : Learns Given (askSchemas tables) schemas) :
    ∀ schema ∈ schemas, TrueRecord Given schema := by
  induction tables generalizing schemas with
  | nil =>
    cases h
    simp
  | cons table rest ih =>
    obtain ⟨schema, hschema, h⟩ := Learns.of_bind h
    obtain ⟨more, hmore, h⟩ := Learns.of_bind h
    cases h
    rw [List.forall_mem_cons]
    exact ⟨trueRecord_askSchema hschema, ih hmore⟩

theorem trueRecord_askAll {sql : String} {tables : List String} {includeActual : Bool}
    {fetched : Fetched} (h : Learns Given (askAll sql tables includeActual) fetched) :
    ∀ schema ∈ fetched.schemas, TrueRecord Given schema := by
  obtain ⟨_, _, h⟩ := Learns.of_bind h
  obtain ⟨_, _, h⟩ := Learns.of_bind h
  obtain ⟨schemas, hschemas, h⟩ := Learns.of_bind h
  cases h
  exact trueRecord_askSchemas hschemas

/-- What a result shows of a table is what the exchanges of its query told. -/
theorem Fate.trueRecord {index : Nat} {request : Request} {e : TaskEnd}
    (h : Fate S index request es e) :
    ∀ schema ∈ (e.result index request).schemas, TrueRecord (GivenIn es) schema := by
  cases h with
  | refused _ => exact fun _ hs => absurd hs List.not_mem_nil
  | fetched _ hends hres =>
    rw [hres]
    unfold resultOf
    split
    · rename_i fetched hend
      obtain rfl := hend
      exact trueRecord_askAll (.of_finished hends)
    all_goals exact fun _ hs => absurd hs List.not_mem_nil

/-! ## The calls for tables -/

theorem nodup_tableNames (sql : String) : (Statement.tableNames sql).Nodup :=
  (Statement.listedOnce_distinctNames _).distinct

theorem nodup_schemaCalls {tables : List String} (h : tables.Nodup) :
    (schemaCalls tables).Nodup := by
  unfold schemaCalls
  rw [List.nodup_flatMap]
  refine ⟨fun table _ => by simp, h.imp fun hne => ?_⟩
  simp [Function.onFun, Ne.symm hne]

/-- No call is made twice for a query. -/
theorem nodup_script (sql : String) {tables : List String} (h : tables.Nodup)
    (includeActual : Bool) : (script sql tables includeActual).Nodup := by
  have hplan : ∀ mode, Call.plan mode sql ∉ schemaCalls tables := by simp [schemaCalls]
  unfold script
  cases includeActual with
  | false => simpa using ⟨hplan _, nodup_schemaCalls h⟩
  | true => simpa using ⟨hplan _, hplan _, nodup_schemaCalls h⟩

end QueryReview.Session

namespace QueryReview.Wire

open Session
open QueryReview.Json (member? setMember)

variable {schemas : List Catalog.TableSchema} {value : Catalog.TableSchema → Json}

/-! ## One member for each table -/

theorem setMember_of_not_mem {name : String} {members : List (String × Json)}
    (h : name ∉ members.map Prod.fst) (j : Json) :
    setMember name j members = members ++ [(name, j)] := by
  have hentries : setMember name (id j) (members.map fun e => (e.1, id e.2))
      = (setEntry name j members).map fun e => (e.1, id e.2) := setMember_map name j members
  simpa [setEntry_of_not_mem h] using hentries

/-- Of tables with different names none is lost, and they keep their order. -/
theorem byTable_eq_map (h : (schemas.map (·.table)).Nodup) :
    byTable value schemas = schemas.map fun s => (s.table, value s) := by
  induction schemas using List.reverseRecOn with
  | nil => rfl
  | append_singleton schemas s ih =>
    rw [List.map_append, List.nodup_append] at h
    obtain ⟨hfront, _, happart⟩ := h
    have hprefix : byTable value schemas = schemas.map fun s => (s.table, value s) := ih hfront
    have hnew : s.table ∉ (schemas.map fun s => (s.table, value s)).map Prod.fst := by
      rw [List.map_map]
      intro hmem
      exact happart _ hmem _ (List.mem_singleton_self _) rfl
    have hstep : byTable value (schemas ++ [s])
        = setMember s.table (value s) (byTable value schemas) := by
      simp [byTable]
    rw [hstep, hprefix, setMember_of_not_mem hnew, List.map_append, List.map_singleton]

theorem member?_map (h : (schemas.map (·.table)).Nodup) :
    ∀ s ∈ schemas, member? s.table (schemas.map fun s => (s.table, value s)) = some (value s) := by
  induction schemas with
  | nil => simp
  | cons first rest ih =>
    rw [List.map_cons, List.nodup_cons] at h
    intro s hs
    rw [List.map_cons, member?]
    rcases List.mem_cons.mp hs with rfl | hs
    · rw [if_pos rfl]
    · have hne : first.table ≠ s.table := fun he => h.1 (he ▸ List.mem_map_of_mem hs)
      rw [if_neg hne]
      exact ih h.2 s hs

/-! ## The tables in a view -/

/-- The view of a result holds these members for its tables and for its indexes. Each name leads to
what was given for it. -/
structure ShowsTables (Given : (call : Call) → call.Answer → Prop) (r : QueryResult)
    (tables indexes : List (String × Json)) : Prop where
  underTables : member? "tables" (resultMembers r) = some (.object tables)
  underIndexes : member? "indexes" (resultMembers r) = some (.object indexes)
  underReferenced : member? "referenced_tables" (resultMembers r) = some (.ofStrings r.tables)
  sameNames : tables.map Prod.fst = indexes.map Prod.fst
  distinct : (tables.map Prod.fst).Nodup
  /-- A query that failed shows no table. -/
  bare : r.isFailed = true → tables = [] ∧ indexes = []
  /-- A query that succeeded shows all the tables it names, in their order. -/
  whole : r.isSuccess = true → tables.map Prod.fst = r.tables
  each : ∀ name ∈ tables.map Prod.fst, ∃ columns parts,
    Given (.columns name) columns ∧ Given (.indexes name) parts ∧
    member? name tables = some (ofColumns columns) ∧
    member? name indexes = some (ofIndexes parts)

theorem nodup_tables_of_coherent {r : QueryResult} {includeActual : Bool}
    (h : r.Coherent includeActual) : (r.schemas.map (·.table)).Nodup := by
  by_cases hr : r.isSuccess = true
  · obtain ⟨_, _, _, hnames, _, _, hschemas, _⟩ := h.whole hr
    rw [hschemas, hnames]
    exact nodup_tableNames _
  · have hfailed : r.isFailed = true := by simp [isFailed_eq_not_isSuccess, hr]
    obtain ⟨_, _, _, hschemas, _⟩ := h.bare hfailed
    rw [hschemas]
    exact .nil

theorem exists_showsTables {Given : (call : Call) → call.Answer → Prop} {r : QueryResult}
    {includeActual : Bool} (h : r.Coherent includeActual)
    (htrue : ∀ schema ∈ r.schemas, TrueRecord Given schema) :
    ∃ tables indexes, ShowsTables Given r tables indexes := by
  have hnodup := nodup_tables_of_coherent h
  refine ⟨_, _, rfl, rfl, rfl, ?_, ?_, ?_, ?_, ?_⟩
  all_goals simp only [byTable_eq_map hnodup, List.map_map]
  · rfl
  · exact hnodup
  · intro hfailed
    obtain ⟨_, _, _, hschemas, _⟩ := h.bare hfailed
    simp [hschemas]
  · intro hsuccess
    obtain ⟨_, _, _, _, _, _, hschemas, _⟩ := h.whole hsuccess
    exact hschemas
  · intro name hname
    obtain ⟨schema, hschema, rfl⟩ := List.mem_map.mp hname
    obtain ⟨hcolumns, hindexes⟩ := htrue schema hschema
    exact ⟨_, _, hcolumns, hindexes, member?_map hnodup schema hschema,
      member?_map hnodup schema hschema⟩

variable {S : Setting} {s : Stage} {index : Nat} {result : QueryResult}

theorem exists_showsTables_of_reaches (h : Reaches S s) (hr : s.results[index]? = some result) :
    ∃ tables indexes, ShowsTables (GivenIn (s.exchangesOf index)) result tables indexes := by
  have hlt : index < s.results.length := (List.getElem?_eq_some_iff.mp hr).1
  obtain ⟨request, _, hq, _, _⟩ := h.ordered.taken index hlt
  have hcoherent := h.coherent result (List.mem_of_getElem? hr)
  obtain ⟨e, hfate, rfl⟩ := h.fate hr hq
  exact exists_showsTables hcoherent hfate.trueRecord

theorem nodup_calls_of_reaches (h : Reaches S s) (hr : s.results[index]? = some result) :
    ((s.exchangesOf index).map (·.call)).Nodup := by
  have hlt : index < s.results.length := (List.getElem?_eq_some_iff.mp hr).1
  obtain ⟨request, _, hq, _, _⟩ := h.ordered.taken index hlt
  exact (nodup_script _ (nodup_tableNames _) _).sublist (h.lawful hq).inOrder.sublist

theorem ShowsTables.imp {Given Given' : (call : Call) → call.Answer → Prop} {r : QueryResult}
    {tables indexes : List (String × Json)} (h : ShowsTables Given r tables indexes)
    (himp : ∀ call answer, Given call answer → Given' call answer) :
    ShowsTables Given' r tables indexes where
  underTables := h.underTables
  underIndexes := h.underIndexes
  underReferenced := h.underReferenced
  sameNames := h.sameNames
  distinct := h.distinct
  bare := h.bare
  whole := h.whole
  each name hname := by
    obtain ⟨columns, parts, hcolumns, hparts, hshown⟩ := h.each name hname
    exact ⟨columns, parts, himp _ _ hcolumns, himp _ _ hparts, hshown⟩

/-- In the view of every result that a session has taken down, in either mode and whatever the
database replies, the tables and the indexes stand under the same names, each of them once. For a
query that succeeded these are the tables it names, in their order, each with the columns and the
indexes that the one call for them brought. For a query that failed there are none. So it is for
every review that comes of a run. -/
theorem no_table_is_lost_in_a_view (h : Reaches S s) :
    (∀ index result, s.results[index]? = some result →
      ((s.exchangesOf index).map (·.call)).Nodup ∧
      ∃ tables indexes, ShowsTables (GivenIn (s.exchangesOf index)) result tables indexes) ∧
    ∀ collaborator review,
      (run S.options collaborator S.includeActual S.requests).outcome = .ok review →
      ∀ result ∈ review.results, ∃ tables indexes,
        ShowsTables (fun call answer => (collaborator call).outcome = .answer answer) result
          tables indexes := by
  refine ⟨fun index result hr => ⟨nodup_calls_of_reaches h hr,
    exists_showsTables_of_reaches h hr⟩, ?_⟩
  intro collaborator review hrun result hresult
  have hcomes := comes_run (S := { S with database := .of collaborator }) rfl
  rw [hrun] at hcomes
  obtain ⟨s', hs', hresults, _⟩ := hcomes.exists_stage
  rw [← hresults] at hresult
  obtain ⟨index, hr⟩ := List.mem_iff_getElem?.mp hresult
  obtain ⟨tables, indexes, hshows⟩ := exists_showsTables_of_reaches hs' hr
  refine ⟨tables, indexes, hshows.imp ?_⟩
  rintro call answer ⟨reply, hmem, hanswer⟩
  obtain ⟨p, hp, he⟩ := List.mem_map.mp hmem
  have hgiven := hs'.given p (List.mem_filter.mp hp).1
  rw [he] at hgiven
  obtain rfl : reply = collaborator call := hgiven
  exact hanswer

/-- A query that joins a table to itself, and another table to it. -/
theorem a_table_that_is_joined_twice_is_shown_once :
    let request : Request :=
      { id := "a", label := "a", sql := "SELECT * FROM t JOIN t u ON 1 JOIN v ON 2" }
    let column : Catalog.Column := ⟨"c", "int", false, .primary, none, ""⟩
    let collaborator : Collaborator := fun
      | .plan _ _ => ⟨2, .answer "-> A"⟩
      | .columns _ => ⟨1, .answer [column]⟩
      | .indexes _ => ⟨1, .answer []⟩
    let S : Setting :=
      { options := {}, database := .of collaborator, includeActual := false, requests := [request] }
    ∃ s result tables indexes, Reaches S s ∧ s.results = [result] ∧
      ShowsTables (GivenIn (s.exchangesOf 0)) result tables indexes ∧
      tables.map Prod.fst = ["t", "v"] := by
  intro request column collaborator S
  have hid : isBlankText "a" = false := by decide +kernel
  have hv : validate S.options.maxQueries S.requests = .ok () := by
    simp [S, request, validate, checkIds, hid]
  let result := (analyze S.options collaborator false 0 (request.withDefaultLabel 0)).result
  have hall : (analyzeAll S.options collaborator false S.requests).map (·.result) = [result] := rfl
  have hsuccess : result.isSuccess = true := by decide +kernel
  have hnames : result.tables = ["t", "v"] := by decide +kernel
  have htime : totalNanoseconds [result] < Time.Duration.limit := by decide +kernel
  obtain ⟨summary, hcomes⟩ : ∃ summary, Comes S (.ok ⟨[result], summary⟩) :=
    exists_comes_review hv rfl htime
  obtain ⟨s, hs, hresults, _⟩ := hcomes.exists_stage
  have hfirst : s.results[0]? = some result := by
    rw [hresults]
    rfl
  obtain ⟨_, tables, indexes, hshows⟩ := (no_table_is_lost_in_a_view hs).1 0 result hfirst
  exact ⟨s, result, tables, indexes, hs, hresults, hshows, (hshows.whole hsuccess).trans hnames⟩

end QueryReview.Wire
