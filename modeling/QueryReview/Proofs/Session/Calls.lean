-- What a session sends to the database. A call for the measured plan runs the statement, so no
-- call may be made out of turn, whatever the database answers and however the tasks are mixed.
import QueryReview.Proofs.Session.Fate

namespace QueryReview.Session

open Statement

variable {S : Setting} {s : Stage} {index : Nat} {request : Request} {es : List Exchange}

/-! ## Who is let through -/

theorem admit?_eq_ok {policy : Policy} {sql : String} {tables : List String}
    (h : admit? policy sql = .ok tables) :
    classify policy sql = .safe ∧ tableNames sql = tables ∧ tables ≠ [] := by
  unfold admit? at h
  split at h
  · cases h
  · rename_i hsafe
    split at h
    · cases h
    · rename_i hne
      cases h
      exact ⟨hsafe, rfl, hne⟩

theorem admit?_of_safe {policy : Policy} {sql : String} {tables : List String}
    (hsafe : classify policy sql = .safe) (htables : tableNames sql = tables) (hne : tables ≠ []) :
    admit? policy sql = .ok tables := by
  unfold admit?
  rw [hsafe, htables]
  cases tables with
  | nil => exact absurd rfl hne
  | cons table tables => rfl

theorem admit?_eq_error {policy : Policy} {sql : String} {e : QueryError}
    (h : admit? policy sql = .error e) :
    (classify policy sql).isBlocked = true ∨ tableNames sql = [] := by
  unfold admit? at h
  split at h
  · rename_i hblocked
    left
    rw [hblocked]
    rfl
  · split at h
    · rename_i hnil
      exact Or.inr hnil
    · cases h

/-! ## The law of one query -/

/-- The calls that have been made for a statement, and its result if there is one, keep to the
script. -/
structure Lawful (S : Setting) (sql : String) (es : List Exchange) (result? : Option QueryResult) :
    Prop where
  /-- Nothing is sent for a statement that is blocked or names no table. -/
  silent : (classify S.options.policy sql).isBlocked = true ∨ tableNames sql = [] → es = []
  inOrder : es.map (·.call) <+: script sql (tableNames sql) S.includeActual
  /-- A call that fails, breaks down or is cut off is the last one. -/
  stops : ∀ front e back, es = front ++ e :: back →
    Breaks S.options.timeLimit? front e → back = []
  whole : ∀ result, result? = some result → result.isSuccess = true →
    es.map (·.call) = script sql (tableNames sql) S.includeActual
  /-- Nothing but the last call keeps a statement that was let through from its success. -/
  broken : ∀ result, result? = some result → result.isSuccess = false →
    (classify S.options.policy sql).isSafe = true → tableNames sql ≠ [] →
    ∃ front e, es = front ++ [e] ∧ Breaks S.options.timeLimit? front e

theorem lawful_nil (S : Setting) (sql : String) : Lawful S sql [] none where
  silent _ := rfl
  inOrder := List.nil_prefix
  stops front e back he := by simp at he
  whole result he := by cases he
  broken result he := by cases he

theorem Lawful.of_result {sql : String} {result? : Option QueryResult}
    (h : Lawful S sql es result?) : Lawful S sql es none where
  silent := h.silent
  inOrder := h.inOrder
  stops := h.stops
  whole result he := by cases he
  broken result he := by cases he

theorem lawful_of_refused {error : QueryError} {result : QueryResult}
    (ha : admit? S.options.policy request.sql = .error error) (hr : result.isSuccess = false) :
    Lawful S request.sql [] (some result) where
  silent _ := rfl
  inOrder := List.nil_prefix
  stops front e back he := by simp at he
  whole result' he hs := by
    cases he
    rw [hr] at hs
    cases hs
  broken result' _ _ hsafe hne := by
    rcases admit?_eq_error ha with hb | hnil
    · cases hc : classify S.options.policy request.sql with
      | safe => simp [hc, Verdict.isBlocked, Verdict.reason?] at hb
      | blocked reason => simp [hc, Verdict.isSafe, Verdict.reason?] at hsafe
    · exact absurd hnil hne

/-- Three of the laws hang on the calls alone. -/
theorem lawful_of_sent {tables : List String} {result? : Option QueryResult}
    (ha : admit? S.options.policy request.sql = .ok tables)
    (h : (askAll request.sql tables S.includeActual).Sent S.options.timeLimit? es)
    (hw : ∀ result, result? = some result → result.isSuccess = true →
      es.map (·.call) = script request.sql tables S.includeActual)
    (hb : ∀ result, result? = some result → result.isSuccess = false →
      ∃ front e, es = front ++ [e] ∧ Breaks S.options.timeLimit? front e) :
    Lawful S request.sql es result? := by
  obtain ⟨hsafe, rfl, hne⟩ := admit?_eq_ok ha
  refine ⟨?_, ?_, ?_, hw, fun result he hs _ _ => hb result he hs⟩
  · rintro (hblocked | hnil)
    · rw [hsafe] at hblocked
      cases hblocked
    · exact absurd hnil hne
  · exact (asks_askAll _ _ _).of_sent h
  · intro front e back he hbreaks
    exact h.stops he hbreaks

theorem isSuccess_resultOf (index : Nat) (request : Request) (tables : List String)
    (run : Run Fetched) :
    (resultOf index request tables run).isSuccess = true ↔
      ∃ fetched, run.ending = .finished fetched := by
  unfold resultOf
  split
  all_goals simp_all [QueryResult.isSuccess, QueryResult.success, QueryResult.failed]

theorem Fate.lawful {e : TaskEnd} (h : Fate S index request es e) :
    Lawful S request.sql es (some (e.result index request)) := by
  cases h with
  | refused ha => exact lawful_of_refused ha rfl
  | @fetched tables es elapsed ending e ha hends hres =>
    refine lawful_of_sent ha hends.sent ?_ ?_
    · rintro result ⟨⟩ hs
      rw [hres, isSuccess_resultOf] at hs
      obtain ⟨fetched, rfl⟩ := hs
      exact (asks_askAll _ _ _).of_finished hends
    · rintro result ⟨⟩ hs
      refine hends.broken ?_
      rintro fetched rfl
      rw [hres] at hs
      cases hs

theorem Task.Fits.lawful {task : Task} {now : Nat} (h : task.Fits S now index request es) :
    Lawful S request.sql es none := by
  cases task with
  | queued =>
    obtain rfl : es = [] := h
    exact lawful_nil S request.sql
  | admitted =>
    obtain rfl : es = [] := h
    exact lawful_nil S request.sql
  | thinking tables began rest =>
    obtain ⟨ha, hh, ht, _⟩ := h
    exact lawful_of_sent ha (.heard hh ht) (by simp) (by simp)
  | waiting tables began sent call reply next =>
    obtain ⟨ha, front, rfl, hh, ht, _⟩ := h
    exact lawful_of_sent ha (.out hh ht) (by simp) (by simp)
  | ended e => exact (Fate.lawful h).of_result

theorem Reaches.lawful (h : Reaches S s) (hq : S.queries[index]? = some request) :
    Lawful S request.sql (s.exchangesOf index) s.results[index]? := by
  cases hr : s.results[index]? with
  | some result =>
    obtain ⟨e, hfate, rfl⟩ := h.fate hr hq
    exact hfate.lawful
  | none =>
    cases ht : s.tasks[index]? with
    | some task => exact (h.fits ht hq).lawful
    | none =>
      have hnil := Stage.exchangesOf_eq_nil h.ordered.logged (List.getElem?_eq_none_iff.mp ht)
      rw [hnil]
      exact lawful_nil S request.sql

/-! ## Against a collaborator -/

/-- The database gave every reply that a session has heard or is waiting for. -/
theorem Reaches.given (h : Reaches S s) : ∀ p ∈ s.log, S.database p.2.call p.2.reply := by
  induction h with
  | start => simp
  | @step s s' _ _ hs ih =>
    cases hs with
    | work _ _ hstep =>
      intro p hp
      rcases List.mem_append.mp hp with hp | hp
      · exact ih p hp
      · obtain ⟨e, he, rfl⟩ := List.mem_map.mp hp
        cases hstep with
        | send hreply =>
          obtain rfl := List.mem_singleton.mp he
          exact hreply
        | _ => cases he
    | _ => exact ih

/-- The fate of a query is the one that its analysis alone gives. -/
theorem Fate.analyze_eq {collaborator : Collaborator} {e : TaskEnd}
    (h : Fate S index request es e) (hc : ∀ x ∈ es, x.reply = collaborator x.call) :
    analyze S.options collaborator S.includeActual index request
      = { result := e.result index request, calls := es.map (·.call) } := by
  cases h with
  | refused ha =>
    unfold analyze
    rw [ha]
    rfl
  | fetched ha hends hres =>
    unfold analyze
    rw [ha]
    simp only [hends.run_eq hc, hres]

theorem Reaches.analyze_eq {collaborator : Collaborator} (h : Reaches S s)
    (hd : S.database = .of collaborator) {result : QueryResult}
    (hr : s.results[index]? = some result) (hq : S.queries[index]? = some request) :
    analyze S.options collaborator S.includeActual index request
      = { result, calls := (s.exchangesOf index).map (·.call) } := by
  obtain ⟨e, hfate, rfl⟩ := h.fate hr hq
  refine hfate.analyze_eq ?_
  intro x hx
  obtain ⟨p, hp, rfl⟩ := List.mem_map.mp hx
  have hgiven := h.given p (List.mem_filter.mp hp).1
  rw [hd] at hgiven
  exact hgiven

/-- A session that is over has analysed each query as if it were alone. -/
theorem Reaches.analyzeAll_eq {collaborator : Collaborator} (h : Reaches S s)
    (hd : S.database = .of collaborator) (hres : s.results.length = S.queries.length) :
    analyzeAll S.options collaborator S.includeActual S.requests
      = s.results.mapIdx fun index result =>
        { result, calls := (s.exchangesOf index).map (·.call) } := by
  have hlen : (labelled S.requests).length = s.results.length := hres.symm
  unfold analyzeAll
  refine List.ext_getElem (by simpa using hlen) ?_
  intro index h₁ h₂
  simp only [List.length_mapIdx] at h₁ h₂
  simp only [List.getElem_mapIdx]
  exact h.analyze_eq hd (List.getElem?_eq_getElem h₂) (List.getElem?_eq_getElem h₁)

theorem calls_run {options : Options} {collaborator : Collaborator} {includeActual : Bool}
    {requests : List Request} (hv : validate options.maxQueries requests = .ok ())
    (hp : permitsFit options = true) :
    (run options collaborator includeActual requests).calls
      = (analyzeAll options collaborator includeActual requests).flatMap (·.calls) := by
  unfold run
  rw [hv]
  simp only [hp, if_true]

/-! ## The law of a session -/

theorem getElem?_labelled {requests : List Request} (hq : requests[index]? = some request) :
    (labelled requests)[index]? = some (request.withDefaultLabel index) := by
  simp [labelled, hq]

theorem sql_withDefaultLabel (request : Request) (index : Nat) :
    (request.withDefaultLabel index).sql = request.sql := by
  unfold Request.withDefaultLabel
  split
  · rfl
  · rfl

/-- In sequential mode the calls for an earlier request stand first. -/
theorem Reaches.log_eq (h : Reaches S s) (hm : S.options.mode = .sequential) :
    s.log.map (·.2) = (List.range S.queries.length).flatMap s.exchangesOf := by
  rw [(h.oneByOne hm).log]
  obtain ⟨more, hmore⟩ := Nat.exists_eq_add_of_le h.ordered.spawned
  rw [hmore, List.range_add, List.flatMap_append]
  have hnil : (List.map (s.tasks.length + ·) (List.range more)).flatMap s.exchangesOf = [] := by
    rw [List.flatMap_eq_nil_iff]
    intro i hi
    obtain ⟨j, _, rfl⟩ := List.mem_map.mp hi
    exact Stage.exchangesOf_eq_nil h.ordered.logged (Nat.le_add_right _ _)
  rw [hnil, List.append_nil]

theorem Reaches.calls_eq_run {collaborator : Collaborator} (h : Reaches S s)
    (hd : S.database = .of collaborator) (hm : S.options.mode = .sequential) (hopen : S.Opens)
    (hres : s.results.length = S.queries.length) :
    s.log.map (·.2.call) = (run S.options collaborator S.includeActual S.requests).calls := by
  rw [calls_run hopen.1 hopen.2, h.analyzeAll_eq hd hres]
  have hlog := congrArg (List.map (·.call)) (h.log_eq hm)
  rw [List.map_map] at hlog
  refine hlog.trans ?_
  rw [List.map_flatMap, ← hres, List.flatMap_def, List.flatMap_def]
  congr 1
  refine List.ext_getElem (by simp) ?_
  intro index h₁ h₂
  simp

/-- At every stage of every session, each query keeps to its script, no call belongs to no query,
and in sequential mode the calls for an earlier request stand first. Against a collaborator a query
makes the calls that its analysis tells of, and a sequential session those that `run` tells of. -/
theorem nothing_is_sent_out_of_turn (h : Reaches S s) :
    (∀ index request, S.requests[index]? = some request →
      Lawful S request.sql (s.exchangesOf index) s.results[index]?) ∧
    (∀ p ∈ s.log, p.1 < S.requests.length) ∧
    (S.options.mode = .sequential →
      s.log.map (·.2) = (List.range S.requests.length).flatMap s.exchangesOf) ∧
    (∀ collaborator, S.database = .of collaborator →
      (∀ index request result, S.requests[index]? = some request →
        s.results[index]? = some result →
        (s.exchangesOf index).map (·.call) = (analyze S.options collaborator S.includeActual index
          (request.withDefaultLabel index)).calls) ∧
      (S.options.mode = .sequential → S.Opens → s.results.length = S.requests.length →
        s.log.map (·.2.call)
          = (run S.options collaborator S.includeActual S.requests).calls)) := by
  have hlen : S.queries.length = S.requests.length := by simp [Setting.queries, labelled]
  refine ⟨?_, ?_, ?_, ?_⟩
  · intro index request hq
    rw [← sql_withDefaultLabel request index]
    exact h.lawful (getElem?_labelled hq)
  · intro p hp
    have hlt := h.ordered.logged p hp
    have hle := h.ordered.spawned
    omega
  · intro hm
    rw [← hlen]
    exact h.log_eq hm
  · intro collaborator hd
    refine ⟨?_, ?_⟩
    · intro index request result hq hr
      rw [h.analyze_eq hd hr (getElem?_labelled hq)]
    · intro hm hopen hres
      exact h.calls_eq_run hd hm hopen (hres.trans hlen.symm)

/-- Such a stage: the first call of a session is out. -/
theorem the_first_call_is_in_its_place :
    ∃ S s, Reaches S s ∧ s.log.map (·.2.call) = [.plan .estimated "SELECT * FROM t"] ∧
      Lawful S "SELECT * FROM t" (s.exchangesOf 0) s.results[0]? := by
  let request : Request := { id := "a", label := "", sql := "SELECT * FROM t" }
  let S : Setting :=
    { options := {}, database := fun _ _ => True, includeActual := true, requests := [request] }
  have hid : isBlankText "a" = false := by decide +kernel
  have hopen : S.Opens := ⟨by simp [S, request, validate, checkIds, hid], rfl⟩
  have hsafe : classify S.options.policy request.sql = .safe := by decide +kernel
  have htables : tableNames request.sql = ["t"] := by decide +kernel
  have hquery : S.queries[0]? = some (request.withDefaultLabel 0) := getElem?_labelled rfl
  have hsql := sql_withDefaultLabel request 0
  have hadmit : admit? S.options.policy (request.withDefaultLabel 0).sql = .ok ["t"] := by
    unfold admit?
    rw [hsql, hsafe, htables]
  have hspawn : Reaches S { tasks := [.admitted] } :=
    .step hopen .start (.spawn Nat.zero_lt_one fun _ => rfl)
  have hbegin := Reaches.step hopen hspawn (.work rfl hquery (.begin hadmit))
  have hreply : S.database (.plan .estimated (request.withDefaultLabel 0).sql)
      ⟨0, .panic none⟩ := trivial
  have hsend := Reaches.step hopen hbegin (.work rfl hquery (.send hreply))
  refine ⟨S, _, hsend, ?_, ?_⟩
  · simp [hsql, request]
  · exact (nothing_is_sent_out_of_turn hsend).1 0 request rfl

end QueryReview.Session
