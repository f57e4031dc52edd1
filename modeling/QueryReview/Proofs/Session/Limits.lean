-- The time limit of a query. Without a limit a query makes its calls one after the other, up to the
-- first that has no answer. A limit leaves it at that when these calls are through in time. When
-- they are not, the call that is out when the time is over makes the end, whatever it would have
-- come to. So a query that succeeds within a limit does the same within every longer one.
import Mathlib.Data.List.Induction
import QueryReview.Proofs.Session.Independence

namespace QueryReview.Session

open Time

variable {α : Type} {collaborator : Collaborator} {limit : Nat}

/-! ## The calls that are made without a limit -/

/-- The milliseconds that the calls take, one after the other. -/
def timeOf (collaborator : Collaborator) : List Call → Nat
  | [] => 0
  | call :: calls => (collaborator call).delay + timeOf collaborator calls

/-- The calls up to the first that has no answer, which is one of them. -/
def untilBroken (collaborator : Collaborator) : List Call → List Call
  | [] => []
  | call :: calls =>
    match (collaborator call).outcome with
    | .answer _ => call :: untilBroken collaborator calls
    | _ => [call]

@[simp]
theorem timeOf_nil : timeOf collaborator [] = 0 := rfl

@[simp]
theorem timeOf_cons (call : Call) (calls : List Call) :
    timeOf collaborator (call :: calls)
      = (collaborator call).delay + timeOf collaborator calls := rfl

@[simp]
theorem timeOf_append (front back : List Call) :
    timeOf collaborator (front ++ back)
      = timeOf collaborator front + timeOf collaborator back := by
  induction front with
  | nil => simp
  | cons call front ih => simp [ih, Nat.add_assoc]

theorem exceeded?_none (t : Nat) : exceeded? none t = none := rfl

theorem exceeded?_of_le {t : Nat} (h : t ≤ limit) : exceeded? (some limit) t = none := by
  simpa [exceeded?] using h

/-- Calls that take too long have a first one at which the time is over. -/
theorem exists_late {calls : List Call} (h : limit < timeOf collaborator calls) :
    ∃ front call back, calls = front ++ call :: back ∧ timeOf collaborator front ≤ limit ∧
      limit < timeOf collaborator (front ++ [call]) := by
  induction calls using List.reverseRecOn with
  | nil => exact absurd h (Nat.not_lt_zero _)
  | append_singleton calls call ih =>
    by_cases hlate : limit < timeOf collaborator calls
    · obtain ⟨front, first, back, rfl, hin, hover⟩ := ih hlate
      exact ⟨front, first, back ++ [call], by simp, hin, hover⟩
    · exact ⟨calls, call, [], rfl, Nat.le_of_not_lt hlate, h⟩

/-! ## Dialogues with a limit and without one -/

namespace Dialogue

theorem calls_run_unlimited {d : Dialogue α} {calls : List Call} (h : Asks d calls) (t : Nat) :
    (d.run collaborator none t).calls = untilBroken collaborator calls := by
  induction h generalizing t with
  | done => rfl
  | @ask call next calls _ ih =>
    simp only [Dialogue.run, exceeded?_none, untilBroken]
    cases (collaborator call).outcome with
    | answer a => simp [ih a]
    | failure f => rfl
    | panic words => rfl

theorem elapsed_run_unlimited (d : Dialogue α) (t : Nat) :
    (d.run collaborator none t).elapsed
      = t + timeOf collaborator (d.run collaborator none t).calls := by
  induction d generalizing t with
  | done a => rfl
  | ask call next ih =>
    simp only [Dialogue.run, exceeded?_none]
    cases (collaborator call).outcome with
    | answer a => simp [ih a, Nat.add_assoc]
    | failure f => simp
    | panic words => simp

/-- A dialogue that is through in time does not notice the limit. -/
theorem run_of_inTime {d : Dialogue α} {t : Nat}
    (h : t + timeOf collaborator (d.run collaborator none t).calls ≤ limit) :
    d.run collaborator (some limit) t = d.run collaborator none t := by
  induction d generalizing t with
  | done a => rfl
  | ask call next ih =>
    simp only [Dialogue.run, exceeded?_none] at h ⊢
    cases ho : (collaborator call).outcome with
    | answer a =>
      simp only [ho, timeOf_cons] at h
      have hrest := ih a (t := t + (collaborator call).delay) (by omega)
      rw [exceeded?_of_le (by omega)]
      simp only [hrest]
    | failure f =>
      simp only [ho, timeOf_cons] at h
      rw [exceeded?_of_le (by omega)]
    | panic words =>
      simp only [ho, timeOf_cons] at h
      rw [exceeded?_of_le (by omega)]

/-- A dialogue that is not through in time ends with the call that is out when the time is over. -/
theorem run_of_late {d : Dialogue α} {t : Nat} {front back : List Call} {late : Call}
    (hcalls : (d.run collaborator none t).calls = front ++ late :: back)
    (hin : t + timeOf collaborator front ≤ limit)
    (hover : limit < t + timeOf collaborator (front ++ [late])) :
    d.run collaborator (some limit) t
      = { calls := front ++ [late], elapsed := limit, ending := .timedOut limit } := by
  induction d generalizing t front with
  | done a => simp [Dialogue.run] at hcalls
  | ask call next ih =>
    simp only [Dialogue.run, exceeded?_none] at hcalls ⊢
    cases front with
    | nil =>
      -- The first call is late, whatever its outcome.
      have hcall : call = late := by
        cases ho : (collaborator call).outcome <;> simp_all
      subst hcall
      rw [List.nil_append, timeOf_cons, timeOf_nil, Nat.add_zero] at hover
      rw [exceeded?_of_lt rfl hover]
      rfl
    | cons first front =>
      cases ho : (collaborator call).outcome with
      | answer a =>
        rw [ho] at hcalls
        obtain ⟨rfl, hrest⟩ := List.cons.inj hcalls
        rw [List.cons_append, timeOf_cons] at hover
        rw [timeOf_cons] at hin
        have hrun := ih a hrest (by omega) (by omega)
        rw [exceeded?_of_le (by omega)]
        simp only [hrun]
        rfl
      | failure f => simp [ho] at hcalls
      | panic words => simp [ho] at hcalls

/-- A dialogue that finishes within a limit is through in time without it. -/
theorem inTime_of_finished {d : Dialogue α} {a : α}
    (h : (d.run collaborator (some limit) 0).ending = .finished a) :
    timeOf collaborator (d.run collaborator none 0).calls ≤ limit := by
  by_contra hlate
  obtain ⟨front, call, back, hcalls, hin, hover⟩ := exists_late (Nat.lt_of_not_le hlate)
  rw [run_of_late hcalls (by omega) (by omega)] at h
  cases h

end Dialogue

/-! ## One query -/

/-- What a limit makes of the analysis of a query. `due` are the calls that are made without it. -/
structure Punctual (collaborator : Collaborator) (limit index : Nat) (request : Request)
    (tables : List String) (due : List Call) (unlimited limited : Analyzed) : Prop where
  calls : unlimited.calls = due
  /-- The first call at which the time is over is the last one. -/
  late : ∀ front call back, due = front ++ call :: back → timeOf collaborator front ≤ limit →
    limit < timeOf collaborator (front ++ [call]) →
    limited = { result := .failed index request tables (.timeout (.ofMillis limit))
                calls := front ++ [call] }
  /-- When the calls are through in time, the limit makes no difference. -/
  inTime : timeOf collaborator due ≤ limit → limited = unlimited
  success : limited.result.isSuccess = true → timeOf collaborator due ≤ limit ∧
    limited.result.duration = some (.ofMillis (timeOf collaborator due))

variable {options : Options} {includeActual : Bool} {index : Nat} {request : Request}

theorem analyze_of_admitted {tables : List String}
    (ha : admit? options.policy request.sql = .ok tables) :
    analyze options collaborator includeActual index request
      = let run := (askAll request.sql tables includeActual).run collaborator options.timeLimit? 0
        { result := resultOf index request tables run, calls := run.calls } := by
  unfold analyze
  rw [ha]

/-- Only a query that is let through succeeds. -/
theorem exists_tables_of_isSuccess
    (h : (analyze options collaborator includeActual index request).result.isSuccess = true) :
    ∃ tables, admit? options.policy request.sql = .ok tables := by
  unfold analyze at h
  split at h
  · cases h
  · rename_i tables ha
    exact ⟨tables, ha⟩

theorem duration_resultOf {tables : List String} {run : Run Fetched}
    (h : (resultOf index request tables run).isSuccess = true) :
    (resultOf index request tables run).duration = some (.ofMillis run.elapsed) := by
  obtain ⟨fetched, hend⟩ := (isSuccess_resultOf _ _ _ _).mp h
  unfold resultOf
  rw [hend]
  rfl

theorem punctual_analyze (options : Options) (includeActual : Bool) {tables : List String}
    (hl : 0 < limit) (ha : admit? options.policy request.sql = .ok tables) :
    Punctual collaborator limit index request tables
      (untilBroken collaborator (script request.sql tables includeActual))
      (analyze { options with queryTimeoutMs := 0 } collaborator includeActual index request)
      (analyze { options with queryTimeoutMs := limit } collaborator includeActual index
        request) := by
  have hunlimited : analyze { options with queryTimeoutMs := 0 } collaborator includeActual index
      request = _ := analyze_of_admitted ha
  have hlimited : analyze { options with queryTimeoutMs := limit } collaborator includeActual index
      request = _ := analyze_of_admitted ha
  have hnone : Options.timeLimit? { options with queryTimeoutMs := 0 } = none := rfl
  have hsome : Options.timeLimit? { options with queryTimeoutMs := limit } = some limit :=
    if_pos hl
  rw [hnone] at hunlimited
  rw [hsome] at hlimited
  have hcalls : ((askAll request.sql tables includeActual).run collaborator none 0).calls = _ :=
    Dialogue.calls_run_unlimited (asks_askAll request.sql tables includeActual) 0
  have helapsed : ((askAll request.sql tables includeActual).run collaborator none 0).elapsed = _ :=
    Dialogue.elapsed_run_unlimited (askAll request.sql tables includeActual) 0
  rw [hunlimited, hlimited, ← hcalls]
  generalize askAll request.sql tables includeActual = d at *
  refine ⟨rfl, ?_, ?_, ?_⟩
  · intro front call back hdue hin hover
    rw [Dialogue.run_of_late hdue (by omega) (by omega)]
    rfl
  · intro hin
    rw [Dialogue.run_of_inTime (by omega)]
  · intro hs
    obtain ⟨fetched, hend⟩ := (isSuccess_resultOf _ _ _ _).mp hs
    have hin := Dialogue.inTime_of_finished hend
    have hsame : d.run collaborator (some limit) 0 = d.run collaborator none 0 :=
      Dialogue.run_of_inTime (by omega)
    refine ⟨hin, ?_⟩
    rw [duration_resultOf hs, hsame, helapsed, Nat.zero_add]

/-! ## Sessions with a limit -/

/-- A session with the options given, but for its mode and its limit. -/
def Setting.limited (options : Options) (collaborator : Collaborator) (includeActual : Bool)
    (requests : List Request) (mode : ExecutionMode) (limit : Nat) : Setting :=
  { options := { options with mode, queryTimeoutMs := limit }
    database := .of collaborator, includeActual, requests }

/-- A success does not hang on the limit, once the limit is long enough. -/
theorem analyze_of_longer {limit' : Nat} (hl : 0 < limit) (hle : limit ≤ limit')
    (h : (analyze { options with queryTimeoutMs := limit } collaborator includeActual index
      request).result.isSuccess = true) :
    analyze { options with queryTimeoutMs := limit' } collaborator includeActual index request
      = analyze { options with queryTimeoutMs := limit } collaborator includeActual index
        request := by
  obtain ⟨tables, ha⟩ := exists_tables_of_isSuccess h
  have hshort : Punctual collaborator limit index request tables _ _ _ :=
    punctual_analyze options includeActual hl ha
  have hlong : Punctual collaborator limit' index request tables _ _ _ :=
    punctual_analyze options includeActual (by omega) ha
  have hin := (hshort.success h).1
  rw [hshort.inTime hin, hlong.inTime (hin.trans hle)]

/-- What is taken down for a query, in either mode, is its analysis with the limit. -/
theorem Reaches.analyze_limited {requests : List Request} {mode : ExecutionMode} {s : Stage}
    {result : QueryResult}
    (h : Reaches (.limited options collaborator includeActual requests mode limit) s)
    (hq : requests[index]? = some request) (hr : s.results[index]? = some result) :
    analyze { options with queryTimeoutMs := limit } collaborator includeActual index
        (request.withDefaultLabel index)
      = { result, calls := (s.exchangesOf index).map (·.call) } :=
  h.analyze_eq rfl hr (getElem?_labelled hq)

/-- A success stays what it is when the limit is raised. -/
theorem Reaches.result_of_longer {requests : List Request} {mode mode' : ExecutionMode}
    {limit' : Nat} {s s' : Stage} {result : QueryResult} (hl : 0 < limit) (hle : limit ≤ limit')
    (h : Reaches (.limited options collaborator includeActual requests mode limit) s)
    (h' : Reaches (.limited options collaborator includeActual requests mode' limit') s')
    (hover : ∀ s'', ¬ Stage.Step
      (.limited options collaborator includeActual requests mode' limit') s' s'')
    (hr : s.results[index]? = some result) (hs : result.isSuccess = true) :
    s'.results[index]? = some result := by
  obtain ⟨request, _, hquery, _, _⟩ := h.ordered.taken index (List.getElem?_eq_some_iff.mp hr).1
  have halone : analyze { options with queryTimeoutMs := limit } collaborator includeActual index
      request = { result, calls := (s.exchangesOf index).map (·.call) } :=
    h.analyze_eq rfl hr hquery
  have hlen := h'.length_of_over (fun call => ⟨collaborator call, rfl⟩) hover
  have hres : s'.results[index]? = some (analyze { options with queryTimeoutMs := limit' }
      collaborator includeActual index request).result := h'.result_eq rfl hlen hquery
  have hshort : (analyze { options with queryTimeoutMs := limit } collaborator includeActual index
      request).result.isSuccess = true := by
    rw [halone]
    exact hs
  rw [hres, analyze_of_longer hl hle hshort, halone]

/-- A limit cuts a query off exactly when its calls, up to the first that has no answer, take longer
than the limit, and it does so at the call that is out at that moment. It is so for the analysis of
a query alone and in every session, in either mode. A query that succeeds in a session comes to the
same result in every session with a longer limit, in whichever mode that is run. -/
theorem a_limit_cuts_off_what_is_late (hl : 0 < limit) (options : Options)
    (collaborator : Collaborator) (includeActual : Bool) :
    (∀ index request tables, admit? options.policy request.sql = .ok tables →
      Punctual collaborator limit index request tables
        (untilBroken collaborator (script request.sql tables includeActual))
        (analyze { options with queryTimeoutMs := 0 } collaborator includeActual index request)
        (analyze { options with queryTimeoutMs := limit } collaborator includeActual index
          request)) ∧
    (∀ requests mode s,
      Reaches (.limited options collaborator includeActual requests mode limit) s →
      ∀ index request result tables, requests[index]? = some request →
        s.results[index]? = some result → admit? options.policy request.sql = .ok tables →
        Punctual collaborator limit index (request.withDefaultLabel index) tables
          (untilBroken collaborator (script request.sql tables includeActual))
          (analyze { options with queryTimeoutMs := 0 } collaborator includeActual index
            (request.withDefaultLabel index))
          { result, calls := (s.exchangesOf index).map (·.call) }) ∧
    ∀ requests mode mode' limit' (s s' : Stage), limit ≤ limit' →
      Reaches (.limited options collaborator includeActual requests mode limit) s →
      Reaches (.limited options collaborator includeActual requests mode' limit') s' →
      (∀ s'', ¬ Stage.Step (.limited options collaborator includeActual requests mode' limit')
        s' s'') →
      ∀ (index : Nat) (result : QueryResult), s.results[index]? = some result →
        result.isSuccess = true → s'.results[index]? = some result := by
  refine ⟨fun index request tables ha => punctual_analyze options includeActual hl ha, ?_, ?_⟩
  · intro requests mode s hs index request result tables hq hr ha
    rw [← sql_withDefaultLabel request index] at ha ⊢
    rw [← hs.analyze_limited hq hr]
    exact punctual_analyze options includeActual hl ha
  · intro requests mode mode' limit' s s' hle hs hs' hover index result hr hsuccess
    exact hs.result_of_longer hl hle hs' hover hr hsuccess

/-- The second call ends right at the limit, and is heard. The third one would fail, but is late. -/
theorem a_failure_after_the_limit_is_not_heard :
    let request : Request := { id := "a", label := "a", sql := "SELECT * FROM t" }
    let collaborator : Collaborator := fun
      | .plan _ _ => ⟨4, .answer "-> A"⟩
      | .columns _ => ⟨6, .answer []⟩
      | .indexes _ => ⟨1, .failure (.query "no")⟩
    0 < 10 ∧ analyze { queryTimeoutMs := 10 } collaborator false 0 request
      = { result := .failed 0 request ["t"] (.timeout (.ofMillis 10))
          calls := [.plan .estimated request.sql, .columns "t", .indexes "t"] } := by
  intro request collaborator
  have hsafe : Statement.classify {} request.sql = .safe := by decide +kernel
  have htables : Statement.tableNames request.sql = ["t"] := by decide +kernel
  have hadmit : admit? (Options.policy {}) request.sql = .ok ["t"] :=
    admit?_of_safe hsafe htables (by decide)
  have hlimit : 0 < 10 := by decide
  have hlaw := (a_limit_cuts_off_what_is_late hlimit {} collaborator false).1 0 request ["t"] hadmit
  exact ⟨hlimit, hlaw.late [.plan .estimated request.sql, .columns "t"] (.indexes "t") [] rfl
    (by decide) (by decide)⟩

end QueryReview.Session
