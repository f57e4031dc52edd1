-- What comes of a query does not hang on the other queries, on the mode, or on which task goes on
-- when: against a collaborator whose replies hang on the calls alone, every session comes to the
-- results that its queries have when each is analysed alone, and to the review that `run` gives.
import QueryReview.Proofs.Session.Progress

namespace QueryReview.Session

open Time

variable {S : Setting} {s : Stage} {index : Nat} {request : Request}

/-! ## The analysis of one query -/

theorem resultOf_index (index : Nat) (request : Request) (tables : List String)
    (run : Run Fetched) :
    (resultOf index request tables run).index = index ∧
      (resultOf index request tables run).request = request := by
  unfold resultOf
  split
  all_goals exact ⟨rfl, rfl⟩

theorem analyze_index (options : Options) (collaborator : Collaborator) (includeActual : Bool)
    (index : Nat) (request : Request) :
    (analyze options collaborator includeActual index request).result.index = index ∧
      (analyze options collaborator includeActual index request).result.request = request := by
  unfold analyze
  split
  · exact ⟨rfl, rfl⟩
  · exact resultOf_index index request _ _

/-! ## The summary -/

/-- The time that a result brings to the summary. -/
def QueryResult.nanoseconds (r : QueryResult) : Nat := r.duration.elim 0 Duration.nanoseconds

def totalNanoseconds : List QueryResult → Nat
  | [] => 0
  | r :: results => r.nanoseconds + totalNanoseconds results

theorem totalNanoseconds_filter_le (p : QueryResult → Bool) (results : List QueryResult) :
    totalNanoseconds (results.filter p) ≤ totalNanoseconds results := by
  induction results with
  | nil => exact Nat.le_refl _
  | cons r results ih =>
    by_cases hp : p r = true
    · simp only [List.filter_cons, hp, if_true, totalNanoseconds]
      omega
    · simp only [List.filter_cons, hp, totalNanoseconds]
      exact Nat.le_trans ih (Nat.le_add_left _ _)

theorem Tally.add_of_lt {t : Tally} {r : QueryResult}
    (h : t.time.nanoseconds + r.nanoseconds < Duration.limit) :
    ∃ t', t.add r = .ok t' ∧ t'.time.nanoseconds = t.time.nanoseconds + r.nanoseconds := by
  unfold add
  unfold QueryResult.nanoseconds at *
  cases hd : r.duration with
  | none => exact ⟨_, rfl, rfl⟩
  | some duration =>
    rw [hd, Option.elim_some] at h
    have hadd : t.time.add? duration = some ⟨t.time.nanoseconds + duration.nanoseconds⟩ := by
      simp [Duration.add?, h]
    simp only [hadd]
    exact ⟨_, rfl, rfl⟩

theorem Tally.foldlM_of_lt {results : List QueryResult} {t : Tally}
    (h : t.time.nanoseconds + totalNanoseconds results < Duration.limit) :
    ∃ t', results.foldlM Tally.add t = .ok t' := by
  induction results generalizing t with
  | nil => exact ⟨t, rfl⟩
  | cons r results ih =>
    unfold totalNanoseconds at h
    obtain ⟨t', hadd, htime⟩ := add_of_lt (t := t) (r := r) (by omega)
    obtain ⟨t'', hrest⟩ := ih (t := t') (by omega)
    refine ⟨t'', ?_⟩
    rw [List.foldlM_cons, hadd]
    exact hrest

/-- Results whose durations can be added up have a summary. -/
theorem Summary.ofResults_of_lt {results : List QueryResult}
    (h : totalNanoseconds results < Duration.limit) :
    ∃ summary, Summary.ofResults results = .ok summary := by
  have hle := totalNanoseconds_filter_le QueryResult.isSuccess results
  have hzero : ({} : Tally).time.nanoseconds = 0 := rfl
  have hlt : ({} : Tally).time.nanoseconds
      + totalNanoseconds (results.filter QueryResult.isSuccess) < Duration.limit := by
    omega
  obtain ⟨t, ht⟩ := Tally.foldlM_of_lt hlt
  unfold ofResults
  rw [ht]
  exact ⟨_, rfl⟩

/-! ## Sessions that are over -/

/-- The review of the results, if their durations can be added up. -/
def reviewOf (results : List QueryResult) : Except Stop Review :=
  match Summary.ofResults results with
  | .ok summary => .ok { results, summary }
  | .error a => .error (.aborted a)

theorem reviewOf_of_lt {results : List QueryResult}
    (h : totalNanoseconds results < Duration.limit) :
    ∃ summary, reviewOf results = .ok { results, summary } := by
  obtain ⟨summary, hsummary⟩ := Summary.ofResults_of_lt h
  refine ⟨summary, ?_⟩
  unfold reviewOf
  rw [hsummary]

theorem run_eq_reviewOf {options : Options} {collaborator : Collaborator} {includeActual : Bool}
    {requests : List Request} (hv : validate options.maxQueries requests = .ok ())
    (hp : permitsFit options = true) :
    (run options collaborator includeActual requests).outcome
      = reviewOf ((analyzeAll options collaborator includeActual requests).map (·.result)) := by
  unfold run
  rw [hv]
  simp only [hp, if_true]
  unfold reviewOf
  rfl

theorem Reaches.length_of_over (h : Reaches S s) (hd : ∀ call, ∃ reply, S.database call reply)
    (hover : ∀ s', ¬ Stage.Step S s s') : s.results.length = S.queries.length := by
  have hspawned := h.ordered.spawned
  have hjoined := h.ordered.joined
  by_contra hne
  obtain ⟨s', hs⟩ := h.progress hd (by omega)
  exact hover s' hs

theorem Reaches.result_eq {collaborator : Collaborator} (h : Reaches S s)
    (hd : S.database = .of collaborator) (hres : s.results.length = S.queries.length)
    (hq : S.queries[index]? = some request) :
    s.results[index]?
      = some (analyze S.options collaborator S.includeActual index request).result := by
  have hlt : index < s.results.length := by
    rw [hres]
    exact (List.getElem?_eq_some_iff.mp hq).1
  have hsome := List.getElem?_eq_getElem hlt
  rw [h.analyze_eq hd hsome hq]
  exact hsome

/-- All results together. -/
theorem Reaches.results_eq {collaborator : Collaborator} (h : Reaches S s)
    (hd : S.database = .of collaborator) (hres : s.results.length = S.queries.length) :
    (analyzeAll S.options collaborator S.includeActual S.requests).map (·.result)
      = s.results := by
  rw [h.analyzeAll_eq hd hres]
  refine List.ext_getElem (by simp) ?_
  intro i h₁ h₂
  simp

theorem Reaches.result_of_panic (h : Reaches S s) (hres : s.results.length = S.queries.length)
    (hq : S.queries[index]? = some request) {words : Option String}
    (ht : s.tasks[index]? = some (.ended (.panicked words))) :
    s.results[index]?
      = some (.failed index request [] (.taskFailed (panicText words))) := by
  have hlt : index < s.results.length := by
    rw [hres]
    exact (List.getElem?_eq_some_iff.mp hq).1
  obtain ⟨request', e, hq', he, hresult⟩ := h.ordered.taken index hlt
  rw [hq] at hq'
  rw [ht] at he
  cases hq'
  cases he
  exact hresult

/-! ## The law of a session -/

/-- The session is over, and has for each request the result of analysing it alone. -/
structure Settled (options : Options) (collaborator : Collaborator) (includeActual : Bool)
    (requests : List Request) (s : Stage) : Prop where
  length : s.results.length = requests.length
  each : ∀ index request, requests[index]? = some request → ∃ result,
    s.results[index]? = some result ∧ result.index = index ∧
    result.request = request.withDefaultLabel index ∧
    result = (analyze options collaborator includeActual index
      (request.withDefaultLabel index)).result
  /-- A task that panicked made its own query fail. -/
  panicked : ∀ index request words, requests[index]? = some request →
    s.tasks[index]? = some (Task.ended (.panicked words)) →
    s.results[index]? = some (QueryResult.failed index (request.withDefaultLabel index) []
      (.taskFailed (panicText words)))
  /-- In either mode the review of these results comes of the session. -/
  review : ∀ mode, (run { options with mode } collaborator includeActual requests).outcome
    = reviewOf s.results
  summed : totalNanoseconds s.results < Duration.limit →
    ∃ summary, reviewOf s.results = .ok { results := s.results, summary }

theorem permitsFit_of_le {options : Options} (hp : options.permits ≤ maxPermits)
    (mode : ExecutionMode) : permitsFit { options with mode } = true := by
  simp only [permitsFit, Bool.or_eq_true, decide_eq_true_eq]
  exact Or.inr hp

/-- In either mode every session comes to an end, whichever task goes on when, and it is over only
when each request has the result of analysing it alone. -/
theorem every_query_is_analysed_as_if_alone {options : Options} {requests : List Request}
    (hv : validate options.maxQueries requests = .ok ()) (hp : options.permits ≤ maxPermits)
    (collaborator : Collaborator) (includeActual : Bool) (mode : ExecutionMode) :
    let S : Setting :=
      { options := { options with mode }, database := .of collaborator, includeActual, requests }
    (¬ ∃ f : Nat → Stage, f 0 = {} ∧ ∀ n, Stage.Step S (f n) (f (n + 1))) ∧
      ∀ s, Reaches S s → (∀ s', ¬ Stage.Step S s s') →
        Settled options collaborator includeActual requests s := by
  intro S
  refine ⟨Setting.no_endless_session ⟨hv, permitsFit_of_le hp mode⟩, ?_⟩
  intro s h hover
  have hres : s.results.length = S.queries.length :=
    h.length_of_over (fun call => ⟨collaborator call, rfl⟩) hover
  have hlen : S.queries.length = requests.length := by simp [Setting.queries, labelled, S]
  refine ⟨hres.trans hlen, ?_, ?_, ?_, reviewOf_of_lt⟩
  · intro index request hq
    have hresult := h.result_eq rfl hres (getElem?_labelled hq)
    obtain ⟨hindex, hrequest⟩ := analyze_index options collaborator includeActual index
      (request.withDefaultLabel index)
    exact ⟨_, hresult, hindex, hrequest, rfl⟩
  · intro index request words hq ht
    exact h.result_of_panic hres (getElem?_labelled hq) ht
  · intro mode'
    have hv' : validate ({ options with mode := mode' } : Options).maxQueries requests = .ok () := hv
    rw [run_eq_reviewOf hv' (permitsFit_of_le hp mode')]
    exact congrArg reviewOf (h.results_eq rfl hres)

/-- Two queries in parallel, of which one breaks the database down. -/
theorem two_queries_are_analysed_as_if_alone :
    let first : Request := { id := "a", label := "", sql := "SELECT * FROM t" }
    let second : Request := { id := "b", label := "", sql := "SELECT * FROM u" }
    let collaborator : Collaborator := fun call =>
      if call = .plan .estimated first.sql then ⟨7, .panic none⟩ else ⟨3, .failure (.query "no")⟩
    let S : Setting :=
      { options := { mode := .parallel }, database := .of collaborator, includeActual := false
        requests := [first, second] }
    validate 50 [first, second] = .ok () ∧ Options.permits {} ≤ maxPermits ∧
      ∀ s, Reaches S s → (∀ s', ¬ Stage.Step S s s') →
        Settled {} collaborator false [first, second] s := by
  intro first second collaborator S
  have ha : isBlankText "a" = false := by decide +kernel
  have hb : isBlankText "b" = false := by decide +kernel
  have hv : validate ({} : Options).maxQueries [first, second] = .ok () := by
    simp [validate, checkIds, first, second, ha, hb]
  have hp : Options.permits {} ≤ maxPermits := by decide
  exact ⟨hv, hp, (every_query_is_analysed_as_if_alone hv hp collaborator false .parallel).2⟩

end QueryReview.Session
