-- What a session comes to. A list of requests that is accepted has one result for each request,
-- whatever the database does: it may fail, panic or be late at every call. Two numbers out of
-- bounds are all that can still take the review away. In parallel mode there may be more permits
-- than can be counted, and the times of the queries may add up to more than a duration can hold.
import QueryReview.Proofs.Session.Results
import QueryReview.Proofs.Session.Summary
import QueryReview.Wire.Session

namespace QueryReview.Session

open Time

variable {S : Setting} {s : Stage}

/-! ## What may come of a session -/

/-- What may come of a session, whichever replies the database gives and whichever task goes on
when. -/
inductive Comes (S : Setting) : Except Stop Review → Prop
  | refused {e : RequestError} :
      validate S.options.maxQueries S.requests = .error e → Comes S (.error (.refused e))
  | shut :
      validate S.options.maxQueries S.requests = .ok () → permitsFit S.options = false →
      Comes S (.error (.aborted .tooManyPermits))
  | finished {s : Stage} :
      S.Opens → Reaches S s → (∀ s', ¬ Stage.Step S s s') → Comes S (reviewOf s.results)

/-- A session that begins gets to where nothing is left to be done. -/
theorem Setting.exists_over (hopen : S.Opens) :
    ∃ s, Reaches S s ∧ ∀ s', ¬ Stage.Step S s s' := by
  by_contra hcon
  simp only [not_exists, not_and, not_forall, not_not] at hcon
  choose next hnext using hcon
  let stage : Nat → Subtype (Reaches S) := fun n =>
    n.rec ⟨{}, .start⟩ fun _ s => ⟨next s.1 s.2, .step hopen s.2 (hnext s.1 s.2)⟩
  exact Setting.no_endless_session hopen ⟨fun n => (stage n).1, rfl, fun n => hnext _ (stage n).2⟩

theorem Setting.exists_comes (S : Setting) : ∃ o, Comes S o := by
  cases hv : validate S.options.maxQueries S.requests with
  | error e => exact ⟨_, .refused hv⟩
  | ok =>
    cases hp : permitsFit S.options with
    | false => exact ⟨_, .shut hv hp⟩
    | true =>
      obtain ⟨s, hs, hover⟩ := Setting.exists_over ⟨hv, hp⟩
      exact ⟨_, .finished ⟨hv, hp⟩ hs hover⟩

theorem Comes.eq_of_refused {o : Except Stop Review} {e : RequestError} (h : Comes S o)
    (hv : validate S.options.maxQueries S.requests = .error e) : o = .error (.refused e) := by
  cases h with
  | refused hv' =>
    rw [hv] at hv'
    cases hv'
    rfl
  | shut hv' _ =>
    rw [hv] at hv'
    cases hv'
  | finished hopen _ _ =>
    rw [hopen.1] at hv
    cases hv

theorem Comes.eq_of_shut {o : Except Stop Review} (h : Comes S o)
    (hv : validate S.options.maxQueries S.requests = .ok ()) (hp : permitsFit S.options = false) :
    o = .error (.aborted .tooManyPermits) := by
  cases h with
  | refused hv' =>
    rw [hv] at hv'
    cases hv'
  | shut _ _ => rfl
  | finished hopen _ _ =>
    rw [hopen.2] at hp
    cases hp

/-- Against a database with one reply to each call, what comes of a session is what its run
gives. -/
theorem Comes.eq_run {collaborator : Collaborator} {o : Except Stop Review} (h : Comes S o)
    (hd : S.database = .of collaborator) :
    o = (run S.options collaborator S.includeActual S.requests).outcome := by
  cases h with
  | refused hv =>
    unfold run
    rw [hv]
  | shut hv hp =>
    unfold run
    simp [hv, hp]
  | finished hopen hs hover =>
    have hreplies : ∀ call, ∃ reply, S.database call reply := by
      intro call
      rw [hd]
      exact ⟨_, rfl⟩
    rw [run_eq_reviewOf hopen.1 hopen.2, hs.results_eq hd (hs.length_of_over hreplies hover)]

theorem comes_run {collaborator : Collaborator} (hd : S.database = .of collaborator) :
    Comes S (run S.options collaborator S.includeActual S.requests).outcome := by
  obtain ⟨o, ho⟩ := S.exists_comes
  rw [← ho.eq_run hd]
  exact ho

/-- A review is that of the results at some stage. -/
theorem Comes.exists_stage {review : Review} (h : Comes S (.ok review)) :
    ∃ s, Reaches S s ∧ s.results = review.results ∧
      Summary.ofResults review.results = .ok review.summary := by
  generalize ho : (Except.ok review : Except Stop Review) = o at h
  cases h with
  | refused _ => cases ho
  | shut _ _ => cases ho
  | @finished s _ hs _ =>
    obtain ⟨hsummary, hresults⟩ := reviewOf_eq_ok_iff.mp ho.symm
    exact ⟨s, hs, hresults.symm, hresults ▸ hsummary⟩

/-- What can be made of the summary of the results is made of the summary in the review. -/
theorem Comes.exists_of_isOk {review : Review} (h : Comes S (.ok review)) {α : Type}
    {f : Summary → Except Abort α} (hok : ((Summary.ofResults review.results).bind f).isOk = true) :
    ∃ a, f review.summary = .ok a := by
  obtain ⟨_, _, _, hsummary⟩ := h.exists_stage
  rw [hsummary] at hok
  cases hf : f review.summary with
  | error abort => simp [Except.bind, hf, Except.isOk, Except.toBool] at hok
  | ok a => exact ⟨a, rfl⟩

/-- A session whose queries do not take too long together comes to a review. -/
theorem exists_comes_review {options : Options} {collaborator : Collaborator}
    {includeActual : Bool} {requests : List Request}
    (hv : validate options.maxQueries requests = .ok ()) (hp : permitsFit options = true)
    (ht : totalNanoseconds ((analyzeAll options collaborator includeActual requests).map (·.result))
      < Duration.limit) :
    ∃ summary, Comes { options, database := .of collaborator, includeActual, requests }
      (.ok ⟨(analyzeAll options collaborator includeActual requests).map (·.result), summary⟩) := by
  obtain ⟨summary, hreview⟩ := reviewOf_of_lt ht
  refine ⟨summary, ?_⟩
  rw [← hreview, ← run_eq_reviewOf hv hp]
  exact comes_run rfl

/-! ## One result for each request -/

/-- There is one result for each request, in the order of the requests. -/
structure Recorded (S : Setting) (results : List QueryResult) : Prop where
  length : results.length = S.requests.length
  each : ∀ index (request : Request), S.requests[index]? = some request →
    ∃ result : QueryResult, results[index]? = some result ∧ result.index = index ∧
      result.request = request.withDefaultLabel index
  coherent : ∀ result ∈ results, result.Coherent S.includeActual

theorem Fate.result_index {index : Nat} {request : Request} {es : List Exchange} {e : TaskEnd}
    (h : Fate S index request es e) :
    (e.result index request).index = index ∧ (e.result index request).request = request := by
  cases h with
  | refused _ => exact ⟨rfl, rfl⟩
  | fetched _ _ hres =>
    rw [hres]
    exact resultOf_index index request _ _

/-- Each result of a review is what became of the request in its place. -/
theorem Comes.exists_fate {review : Review} (h : Comes S (.ok review)) {place : Nat}
    {r : QueryResult} (hr : review.results[place]? = some r) :
    ∃ s request e, Reaches S s ∧ Fate S place request (s.exchangesOf place) e ∧
      r = e.result place request := by
  obtain ⟨s, hs, hresults, _⟩ := h.exists_stage
  rw [← hresults] at hr
  obtain ⟨request, e, hquery, he, hres⟩ :=
    hs.ordered.taken place (List.getElem?_eq_some_iff.mp hr).1
  rw [hr, Option.some.injEq] at hres
  exact ⟨s, request, e, hs, hs.fits he hquery, hres⟩

/-- In a review, the index of a result is its place in the list. -/
theorem Comes.index_eq {review : Review} (h : Comes S (.ok review)) {place : Nat} {r : QueryResult}
    (hr : review.results[place]? = some r) : r.index = place := by
  obtain ⟨_, _, _, _, hfate, rfl⟩ := h.exists_fate hr
  exact hfate.result_index.1

theorem Comes.coherent {review : Review} (h : Comes S (.ok review)) :
    ∀ r ∈ review.results, r.Coherent S.includeActual := by
  obtain ⟨s, hs, hresults, _⟩ := h.exists_stage
  rw [← hresults]
  exact hs.coherent

/-- A session that is over has a result for each request. -/
theorem Reaches.recorded (h : Reaches S s) (hd : ∀ call, ∃ reply, S.database call reply)
    (hover : ∀ s', ¬ Stage.Step S s s') : Recorded S s.results := by
  have hlen : s.results.length = S.requests.length := by
    rw [h.length_of_over hd hover]
    simp [Setting.queries, labelled]
  refine ⟨hlen, ?_, h.coherent⟩
  intro index request hq
  have hlt : index < s.results.length := by
    rw [hlen]
    exact (List.getElem?_eq_some_iff.mp hq).1
  obtain ⟨query, e, hquery, he, hres⟩ := h.ordered.taken index hlt
  have hlabelled : S.queries[index]? = some (request.withDefaultLabel index) := getElem?_labelled hq
  rw [hquery] at hlabelled
  cases hlabelled
  have hfate : Fate S index (request.withDefaultLabel index) (s.exchangesOf index) e :=
    h.fits he hquery
  exact ⟨_, hres, hfate.result_index⟩

/-- What comes of a session that begins is the review of its results. -/
theorem Comes.of_opens {o : Except Stop Review} (h : Comes S o) (hopen : S.Opens)
    (hd : ∀ call, ∃ reply, S.database call reply) :
    ∃ results, Recorded S results ∧ o = reviewOf results := by
  cases h with
  | refused hv =>
    rw [hopen.1] at hv
    cases hv
  | shut _ hp =>
    rw [hopen.2] at hp
    cases hp
  | finished _ hs hover => exact ⟨_, hs.recorded hd hover, rfl⟩

theorem Recorded.bare {results : List QueryResult} (h : Recorded S results) :
    ∀ r ∈ results, r.isFailed = true → r.duration = none :=
  fun r hr hf => ((h.coherent r hr).bare hf).2.2.1

/-! ## What takes the review away -/

theorem permitsFit_eq_false_iff {options : Options} :
    permitsFit options = false ↔ options.mode = .parallel ∧ maxPermits < options.permits := by
  unfold permitsFit
  cases options.mode <;> simp

/-- Every session comes to an end. It is refused for what is wrong with its list of requests, and
for nothing else. With a list that is accepted, it breaks down when parallel mode is given more
permits than can be counted, before anything is asked, or when the times of the queries do not add
up to a duration. In all other cases it has a review with one result for each request. -/
theorem only_numbers_out_of_bounds_cost_a_review (hd : ∀ call, ∃ reply, S.database call reply) :
    (∃ o, Comes S o) ∧ ∀ o, Comes S o →
      (∀ e, o = .error (.refused e) ↔ validate S.options.maxQueries S.requests = .error e) ∧
      (o = .error (.aborted .tooManyPermits) ↔
        validate S.options.maxQueries S.requests = .ok () ∧
        S.options.mode = .parallel ∧ maxPermits < S.options.permits) ∧
      (S.Opens → ∃ results, Recorded S results ∧
        ((totalNanoseconds results < Duration.limit ∧
          ∃ summary, Summary.ofResults results = .ok summary ∧ o = .ok { results, summary }) ∨
        (Duration.limit ≤ totalNanoseconds results ∧
          o = .error (.aborted .durationOverflow)))) := by
  refine ⟨S.exists_comes, ?_⟩
  intro o ho
  rw [← permitsFit_eq_false_iff]
  cases hv : validate S.options.maxQueries S.requests with
  | error e =>
    obtain rfl := ho.eq_of_refused hv
    refine ⟨by simp, by simp, ?_⟩
    intro hopen
    rw [hopen.1] at hv
    cases hv
  | ok =>
    cases hp : permitsFit S.options with
    | false =>
      obtain rfl := ho.eq_of_shut hv hp
      refine ⟨by simp, by simp, ?_⟩
      intro hopen
      rw [hopen.2] at hp
      cases hp
    | true =>
      obtain ⟨results, hrecorded, rfl⟩ := ho.of_opens ⟨hv, hp⟩ hd
      have hcases := reviewOf_cases hrecorded.bare
      refine ⟨?_, ?_, fun _ => ⟨results, hrecorded, hcases⟩⟩
      · intro e
        rcases hcases with ⟨_, _, _, hreview⟩ | ⟨_, hreview⟩
        · simp [hreview]
        · simp [hreview]
      · rcases hcases with ⟨_, _, _, hreview⟩ | ⟨_, hreview⟩
        · simp [hreview]
        · simp [hreview]

/-- A database that breaks down at every call costs no more than the results of the queries. -/
theorem a_broken_database_costs_no_review :
    let S : Setting :=
      { options := { mode := .parallel, maxParallelism := 0 }
        database := .of fun _ => ⟨0, .panic none⟩, includeActual := true
        requests := [{ id := "a", label := "", sql := "SELECT * FROM t" }] }
    (∃ o, Comes S o) ∧ ∀ o, Comes S o →
      (∀ e, o ≠ .error (.refused e)) ∧ o ≠ .error (.aborted .tooManyPermits) := by
  intro S
  have hid : isBlankText "a" = false := by decide +kernel
  have hv : validate S.options.maxQueries S.requests = .ok () := by
    simp [validate, checkIds, S, hid]
  obtain ⟨hexists, hall⟩ := only_numbers_out_of_bounds_cost_a_review (S := S)
    fun _ => ⟨_, rfl⟩
  refine ⟨hexists, ?_⟩
  intro o ho
  obtain ⟨hrefused, hshut, _⟩ := hall o ho
  refine ⟨?_, ?_⟩
  · intro e he
    rw [(hrefused e).mp he] at hv
    cases hv
  · intro he
    have hmany : maxPermits < S.options.permits := (hshut.mp he).2.2
    exact absurd hmany (by decide)

/-- A number of permits that options may hold, and with which parallel mode breaks down. -/
theorem too_many_permits_cost_the_review :
    let options : Options := { mode := .parallel, maxParallelism := 2305843009213693952 }
    let requests : List Request := [{ id := "a", label := "", sql := "SELECT * FROM t" }]
    Wire.readOptions (Wire.ofOptions options) = some options ∧
    validate options.maxQueries requests = .ok () ∧
    ∀ collaborator includeActual, (run options collaborator includeActual requests).outcome
      = .error (.aborted .tooManyPermits) := by
  intro options requests
  have hid : isBlankText "a" = false := by decide +kernel
  have hv : validate options.maxQueries requests = .ok () := by
    simp [validate, checkIds, options, requests, hid]
  have hp : permitsFit options = false := by decide
  refine ⟨by decide, hv, ?_⟩
  intro collaborator includeActual
  unfold run
  simp [hv, hp]

end QueryReview.Session
