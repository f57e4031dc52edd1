-- What a result may look like. Its fields hang together, whichever way its query came to an end:
-- a query that failed shows no part of what was fetched, and one that succeeded shows all of it.
import QueryReview.Proofs.Session.Calls

namespace QueryReview.Session

open Statement

/-! ## What comes of a dialogue -/

namespace Dialogue

variable {α β : Type} {P : α → Prop}

/-- Whatever the answers are, a value that the dialogue is done with has the property. -/
inductive Yields (P : α → Prop) : Dialogue α → Prop
  | done {a : α} : P a → Yields P (.done a)
  | ask {call : Call} {next : call.Answer → Dialogue α} :
      (∀ a, Yields P (next a)) → Yields P (.ask call next)

theorem Yields.bind {Q : β → Prop} {d : Dialogue α} {f : α → Dialogue β} (h : Yields P d)
    (hf : ∀ a, P a → Yields Q (f a)) : Yields Q (d.bind f) := by
  induction h with
  | done ha => exact hf _ ha
  | ask _ ih => exact .ask ih

theorem Yields.of_heard {d rest : Dialogue α} {es : List Exchange} (h : Yields P d)
    (hh : Heard d es rest) : Yields P rest := by
  induction hh with
  | nothing => exact h
  | answer _ _ ih =>
    cases ih with
    | ask hnext => exact hnext _

theorem Yields.of_finished {limit? : Option Nat} {d : Dialogue α} {es : List Exchange} {t : Nat}
    {a : α} (h : Yields P d) (he : Ends limit? d es t (.finished a)) : P a := by
  cases he with
  | finished hh _ =>
    cases h.of_heard hh with
    | done ha => exact ha

theorem Yields.of_run {collaborator : Collaborator} {limit? : Option Nat} {d : Dialogue α}
    {t : Nat} {a : α} (h : Yields P d)
    (hr : (d.run collaborator limit? t).ending = .finished a) : P a := by
  induction h generalizing t with
  | done ha =>
    cases hr
    exact ha
  | @ask call next _ ih =>
    simp only [Dialogue.run] at hr
    cases he : exceeded? limit? (t + (collaborator call).delay) with
    | some limit =>
      rw [he] at hr
      cases hr
    | none =>
      rw [he] at hr
      cases ho : (collaborator call).outcome with
      | answer answer =>
        rw [ho] at hr
        exact ih answer hr
      | failure f =>
        rw [ho] at hr
        cases hr
      | panic words =>
        rw [ho] at hr
        cases hr

end Dialogue

/-! ## What an analysis fetches -/

/-- The plans that were wanted, the records of each table in order, and the warnings about the
estimated plan. -/
structure Fetched.Complete (tables : List String) (includeActual : Bool) (f : Fetched) : Prop where
  actual : f.actual.isSome = includeActual
  schemas : f.schemas.map (·.table) = tables
  warnings : f.warnings = f.estimated.warnings

open Dialogue

theorem yields_askSchema (table : String) : Yields (·.table = table) (askSchema table) :=
  .ask fun _ => .ask fun _ => .done rfl

theorem yields_askSchemas (tables : List String) :
    Yields (fun schemas => schemas.map (·.table) = tables) (askSchemas tables) := by
  induction tables with
  | nil => exact .done rfl
  | cons table rest ih =>
    refine Yields.bind (yields_askSchema table) fun schema hschema => ?_
    refine Yields.bind ih fun schemas hschemas => .done ?_
    rw [List.map_cons, hschema, hschemas]

theorem yields_askActual (sql : String) (includeActual : Bool) :
    Yields (·.isSome = includeActual) (askActual sql includeActual) := by
  cases includeActual with
  | false => exact .done rfl
  | true => exact .ask fun _ => .done rfl

theorem yields_askAll (sql : String) (tables : List String) (includeActual : Bool) :
    Yields (Fetched.Complete tables includeActual) (askAll sql tables includeActual) := by
  have hplan : Yields (fun _ => True) (ask (.plan .estimated sql)) :=
    .ask fun _ => .done trivial
  refine hplan.bind fun text _ => ?_
  refine Yields.bind (yields_askActual sql includeActual) fun actual hactual => ?_
  refine Yields.bind (yields_askSchemas tables) fun schemas hschemas => ?_
  exact .done ⟨hactual, hschemas, rfl⟩

/-! ## One result -/

/-- The fields of a result hang together. -/
structure QueryResult.Coherent (includeActual : Bool) (r : QueryResult) : Prop where
  /-- A query that failed shows nothing that was fetched. -/
  bare : r.isFailed = true →
    r.estimated = none ∧ r.actual = none ∧ r.duration = none ∧ r.schemas = [] ∧ r.warnings = []
  blocked : ∀ reason, r.verdict = .blocked reason ↔ r.error = some (.blockedStatement reason)
  unnamed : ∀ reason, r.verdict = .blocked reason → r.tables = []
  /-- A query that succeeded shows all that was asked for. -/
  whole : r.isSuccess = true →
    r.error = none ∧ r.verdict = .safe ∧ r.tables ≠ [] ∧ r.tables = tableNames r.request.sql ∧
    r.duration.isSome = true ∧ r.actual.isSome = includeActual ∧
    r.schemas.map (·.table) = r.tables ∧
    ∃ plan, r.estimated = some plan ∧ r.warnings = plan.warnings

theorem verdictOf_eq_blocked_iff (e : QueryError) (reason : BlockReason) :
    QueryResult.verdictOf e = .blocked reason ↔ e = .blockedStatement reason := by
  cases e <;> simp [QueryResult.verdictOf]

theorem coherent_failed {includeActual : Bool} {tables : List String} {e : QueryError}
    (index : Nat) (request : Request)
    (ht : ∀ reason, e = .blockedStatement reason → tables = []) :
    (QueryResult.failed index request tables e).Coherent includeActual where
  bare _ := ⟨rfl, rfl, rfl, rfl, rfl⟩
  blocked reason := by
    rw [QueryResult.failed, Option.some.injEq]
    exact verdictOf_eq_blocked_iff e reason
  unnamed reason h := ht reason ((verdictOf_eq_blocked_iff e reason).mp h)
  whole h := by cases h

theorem coherent_success {includeActual : Bool} {request : Request} {fetched : Fetched}
    (index : Nat) (duration : Time.Duration) (hne : tableNames request.sql ≠ [])
    (hf : fetched.Complete (tableNames request.sql) includeActual) :
    (QueryResult.success index request (tableNames request.sql) fetched duration).Coherent
      includeActual where
  bare h := by cases h
  blocked reason := by simp [QueryResult.success]
  unnamed reason h := by cases h
  whole _ := ⟨rfl, rfl, hne, rfl, rfl, hf.actual, hf.schemas, _, rfl, hf.warnings⟩

theorem coherent_resultOf {policy : Policy} {includeActual : Bool} {request : Request}
    {tables : List String} {run : Run Fetched} (index : Nat)
    (ha : admit? policy request.sql = .ok tables)
    (hf : ∀ fetched, run.ending = .finished fetched → fetched.Complete tables includeActual) :
    (resultOf index request tables run).Coherent includeActual := by
  obtain ⟨_, rfl, hne⟩ := admit?_eq_ok ha
  unfold resultOf
  split
  · rename_i fetched hend
    exact coherent_success index _ hne (hf fetched hend)
  all_goals exact coherent_failed index request fun reason he => by cases he

/-! ## All results -/

theorem coherent_analyze (options : Options) (collaborator : Collaborator) (includeActual : Bool)
    (index : Nat) (request : Request) :
    (analyze options collaborator includeActual index request).result.Coherent includeActual := by
  unfold analyze
  split
  · exact coherent_failed index request fun _ _ => rfl
  · rename_i tables ha
    exact coherent_resultOf index ha fun _ hend => (yields_askAll _ _ _).of_run hend

variable {S : Setting} {s : Stage}

theorem Fate.coherent {index : Nat} {request : Request} {es : List Exchange} {e : TaskEnd}
    (h : Fate S index request es e) : (e.result index request).Coherent S.includeActual := by
  cases h with
  | refused ha => exact coherent_failed index request fun _ _ => rfl
  | fetched ha hends hres =>
    rw [hres]
    refine coherent_resultOf index ha ?_
    rintro fetched rfl
    exact (yields_askAll _ _ _).of_finished hends

theorem Reaches.coherent (h : Reaches S s) :
    ∀ result ∈ s.results, result.Coherent S.includeActual := by
  intro result hr
  obtain ⟨index, hlt, rfl⟩ := List.mem_iff_getElem.mp hr
  obtain ⟨request, e, hq, he, hres⟩ := h.ordered.taken index hlt
  rw [List.getElem?_eq_getElem hlt] at hres
  rw [Option.some.inj hres]
  have hfate : Fate S index request (s.exchangesOf index) e := h.fits he hq
  exact hfate.coherent

/-- In either mode, and whatever the database replies, the fields of every result that a session has
taken down hang together. So they do in every review that comes of a run. -/
theorem the_fields_of_a_result_hang_together (h : Reaches S s) :
    (∀ result ∈ s.results, result.Coherent S.includeActual) ∧
    ∀ collaborator review,
      (run S.options collaborator S.includeActual S.requests).outcome = .ok review →
      ∀ result ∈ review.results, result.Coherent S.includeActual := by
  refine ⟨h.coherent, ?_⟩
  intro collaborator review hrun result hr
  unfold run at hrun
  split at hrun
  · cases hrun
  · split at hrun
    · simp only at hrun
      split at hrun
      · cases hrun
        simp only [analyzeAll, List.mem_map, List.mem_mapIdx] at hr
        obtain ⟨_, ⟨index, hi, rfl⟩, rfl⟩ := hr
        exact coherent_analyze _ _ _ _ _
      · cases hrun
    · cases hrun

/-- A session in which a query has succeeded, measured plan and all. -/
theorem a_query_shows_all_that_was_fetched :
    ∃ S s plan, Reaches S s ∧ S.includeActual = true ∧
      (s.results.map (·.estimated)) = [some plan] ∧
      ∀ result ∈ s.results, result.Coherent true := by
  let request : Request := { id := "a", label := "", sql := "SELECT * FROM t" }
  let S : Setting :=
    { options := {}, database := fun _ _ => True, includeActual := true, requests := [request] }
  let query := request.withDefaultLabel 0
  have hid : isBlankText "a" = false := by decide +kernel
  have hopen : S.Opens := ⟨by simp [S, request, validate, checkIds, hid], rfl⟩
  have hsafe : classify S.options.policy request.sql = .safe := by decide +kernel
  have htables : tableNames request.sql = ["t"] := by decide +kernel
  have hquery : S.queries[0]? = some query := getElem?_labelled rfl
  have hadmit : admit? S.options.policy query.sql = .ok ["t"] := by
    unfold admit?
    rw [sql_withDefaultLabel request 0, hsafe, htables]
  have hbegun : Reaches S
      { tasks := [.thinking ["t"] 0 (askAll query.sql ["t"] true)] } :=
    .step hopen (.step hopen .start (.spawn Nat.zero_lt_one fun _ => rfl))
      (.work rfl hquery (.begin hadmit))
  -- One call and its answer, which is there at once.
  have hexchange : ∀ {log : List (Nat × Exchange)} (call : Call) (answer : call.Answer)
      {next : call.Answer → Dialogue Fetched},
      Reaches S { tasks := [.thinking ["t"] 0 (.ask call next)], log } →
      Reaches S { tasks := [.thinking ["t"] 0 (next answer)]
                  log := log ++ [(0, ⟨call, 0, .answer answer⟩)] } := by
    intro log call answer next h
    have hreply : S.database call ⟨0, .answer answer⟩ := trivial
    have hsent := Reaches.step hopen h (.work rfl hquery (.send hreply))
    have hheard := Reaches.step hopen hsent (.work rfl hquery (.hear rfl rfl rfl))
    simpa using hheard
  have hplan := hexchange (.plan .estimated query.sql) "-> A" hbegun
  have hactual := hexchange (.plan .actual query.sql) "-> A" hplan
  have hcolumns := hexchange (.columns "t") [] hactual
  have hindexes := hexchange (.indexes "t") [] hcolumns
  have hended := Reaches.step hopen hindexes (.work rfl hquery .conclude)
  have hjoined := Reaches.step hopen hended (.join rfl hquery fun h => by cases h)
  exact ⟨S, _, _, hjoined, rfl, rfl, (the_fields_of_a_result_hang_together hjoined).1⟩

end QueryReview.Session
