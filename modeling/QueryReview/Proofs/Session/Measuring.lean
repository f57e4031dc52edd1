-- What it costs a query to be measured as well. The measured plan is one call more, and it may make
-- a query fail or be late. But where a measured query succeeds, the query succeeds without being
-- measured too, no slower and with the same to show, but for the measured plan itself.
import Mathlib.Data.List.Forall2
import QueryReview.Proofs.Session.Limits
import QueryReview.Proofs.Session.Outcome

namespace QueryReview.Session

open Time

variable {α β : Type} {collaborator : Collaborator} {limit? : Option Nat}

/-! ## Dialogues that are heard to the end -/

namespace Dialogue

/-- The collaborator has an answer to each call of the dialogue. These are the calls, and the value
that comes of the answers. -/
inductive Answered (collaborator : Collaborator) : Dialogue α → List Call → α → Prop
  | done {a : α} : Answered collaborator (.done a) [] a
  | ask {call : Call} {next : call.Answer → Dialogue α} {answer : call.Answer}
      {calls : List Call} {a : α} :
      (collaborator call).outcome = .answer answer → Answered collaborator (next answer) calls a →
      Answered collaborator (.ask call next) (call :: calls) a

theorem Answered.bind {d : Dialogue α} {f : α → Dialogue β} {front back : List Call} {a : α}
    {b : β} (h : Answered collaborator d front a) (hf : Answered collaborator (f a) back b) :
    Answered collaborator (d.bind f) (front ++ back) b := by
  induction h with
  | done => exact hf
  | ask ho _ ih => exact .ask ho (ih hf)

/-- What is heard to the end has been heard in two parts. -/
theorem Answered.of_bind {d : Dialogue α} {f : α → Dialogue β} {calls : List Call} {b : β}
    (h : Answered collaborator (d.bind f) calls b) :
    ∃ front a back, calls = front ++ back ∧ Answered collaborator d front a ∧
      Answered collaborator (f a) back b := by
  induction d generalizing calls with
  | done a => exact ⟨[], a, calls, rfl, .done, h⟩
  | ask call next ih =>
    cases h with
    | ask ho hrest =>
      obtain ⟨front, a, back, rfl, ha, hb⟩ := ih _ hrest
      exact ⟨call :: front, a, back, rfl, .ask ho ha, hb⟩

theorem Answered.of_ask {call : Call} {calls : List Call} {answer : call.Answer}
    (h : Answered collaborator (Session.ask call) calls answer) :
    calls = [call] ∧ (collaborator call).outcome = .answer answer := by
  unfold Session.ask at h
  cases h with
  | ask ho hrest =>
    cases hrest
    exact ⟨rfl, ho⟩

/-- A dialogue finishes exactly when all its calls have answers and are through in time. -/
theorem run_eq_finished_iff {d : Dialogue α} {t elapsed : Nat} {calls : List Call} {a : α}
    (ht : InTime limit? t) :
    d.run collaborator limit? t = { calls, elapsed, ending := .finished a } ↔
      Answered collaborator d calls a ∧ elapsed = t + timeOf collaborator calls ∧
        InTime limit? elapsed := by
  constructor
  · intro h
    induction d generalizing t calls with
    | done b =>
      cases h
      exact ⟨.done, rfl, ht⟩
    | ask call next ih =>
      simp only [Dialogue.run] at h
      cases he : exceeded? limit? (t + (collaborator call).delay) with
      | some limit => simp [he] at h
      | none =>
        cases ho : (collaborator call).outcome with
        | failure f => simp [he, ho] at h
        | panic words => simp [he, ho] at h
        | answer answer =>
          simp only [he, ho, Run.mk.injEq] at h
          obtain ⟨rfl, helapsed, hending⟩ := h
          obtain ⟨hanswered, htime, hin⟩ := ih answer he (by rw [← helapsed, ← hending])
          refine ⟨.ask ho hanswered, ?_, hin⟩
          rw [htime, timeOf_cons, Nat.add_assoc]
  · rintro ⟨hanswered, rfl, hin⟩
    induction hanswered generalizing t with
    | done => rfl
    | @ask call next answer calls a ho _ ih =>
      rw [timeOf_cons, ← Nat.add_assoc] at hin ⊢
      have hnow : InTime limit? (t + (collaborator call).delay) := hin.of_le (Nat.le_add_right _ _)
      have hnone : exceeded? limit? (t + (collaborator call).delay) = none := hnow
      simp only [Dialogue.run, hnone, ho, ih hnow hin]

end Dialogue

/-! ## The call that measures -/

open Dialogue

/-- All that is asked of a query but its measured plan is answered alike without it. -/
theorem answered_unmeasured {sql : String} {tables : List String} {calls : List Call}
    {fetched : Fetched} (h : Answered collaborator (askAll sql tables true) calls fetched) :
    ∃ more, calls = .plan .estimated sql :: .plan .actual sql :: more ∧
      Answered collaborator (askAll sql tables false) (.plan .estimated sql :: more)
        { fetched with actual := none } := by
  obtain ⟨_, text, _, rfl, hplan, hrest⟩ := Answered.of_bind h
  obtain ⟨_, actual, _, rfl, hactual, hrest⟩ := Answered.of_bind hrest
  obtain ⟨more, schemas, _, rfl, hschemas, hdone⟩ := Answered.of_bind hrest
  obtain ⟨_, words, _, rfl, hwords, hend⟩ := Answered.of_bind hactual
  cases hend
  cases hdone
  obtain ⟨rfl, ho⟩ := hplan.of_ask
  obtain ⟨rfl, _⟩ := hwords.of_ask
  refine ⟨more, by simp, .ask ho ?_⟩
  rw [← List.append_nil more]
  refine hschemas.bind ?_
  exact .done

/-! ## One query -/

/-- The result is the other one without its measured plan, and took no longer. -/
def QueryResult.Spares (plain measured : QueryResult) : Prop :=
  ∃ d d' : Duration, measured.duration = some d ∧ d'.nanoseconds ≤ d.nanoseconds ∧
    plain = { measured with actual := none, duration := some d' }

/-- The analysis is the other one without the call that measures, and what came of it. -/
structure Analyzed.Spares (sql : String) (plain measured : Analyzed) : Prop where
  success : plain.result.isSuccess = true
  result : plain.result.Spares measured.result
  calls : ∃ more, measured.calls = .plan .estimated sql :: .plan .actual sql :: more ∧
    plain.calls = .plan .estimated sql :: more

variable {options : Options} {index : Nat} {request : Request}

theorem spares_analyze
    (h : (analyze options collaborator true index request).result.isSuccess = true) :
    Analyzed.Spares request.sql (analyze options collaborator false index request)
      (analyze options collaborator true index request) := by
  obtain ⟨tables, ha⟩ := exists_tables_of_isSuccess h
  have hmeasured : analyze options collaborator true index request = _ := analyze_of_admitted ha
  have hplain : analyze options collaborator false index request = _ := analyze_of_admitted ha
  rw [hmeasured] at h ⊢
  rw [hplain]
  obtain ⟨fetched, hend⟩ := (isSuccess_resultOf _ _ _ _).mp h
  have hstart := inTime_zero options.timeLimit?
  generalize hrun : (askAll request.sql tables true).run collaborator options.timeLimit? 0 = run
    at *
  obtain ⟨calls, elapsed, ending⟩ := run
  obtain rfl : ending = .finished fetched := hend
  obtain ⟨hanswered, rfl, hin⟩ := (run_eq_finished_iff hstart).mp hrun
  obtain ⟨more, rfl, hrest⟩ := answered_unmeasured hanswered
  have hle : 0 + timeOf collaborator (.plan .estimated request.sql :: more)
      ≤ 0 + timeOf collaborator
        (.plan .estimated request.sql :: .plan .actual request.sql :: more) := by
    simp only [timeOf_cons]
    omega
  have hrun' := (run_eq_finished_iff hstart).mpr ⟨hrest, rfl, hin.of_le hle⟩
  rw [hrun']
  refine ⟨rfl, ⟨_, _, rfl, ?_, rfl⟩, more, rfl, rfl⟩
  exact Nat.mul_le_mul_right _ hle

/-! ## The figures of a session -/

/-- What is shown of both results but the time and the measured plan is the same. -/
theorem QueryResult.Spares.isSuccess_eq {plain measured : QueryResult}
    (h : plain.Spares measured) : plain.isSuccess = measured.isSuccess := by
  obtain ⟨d, d', _, _, rfl⟩ := h
  rfl

/-- The figures agree, but for a time that may be less. -/
structure Tally.Spares (plain measured : Tally) : Prop where
  cost : plain.cost = measured.cost
  hasWarnings : plain.hasWarnings = measured.hasWarnings
  time : plain.time.nanoseconds ≤ measured.time.nanoseconds

theorem Tally.Spares.add {plain measured next : Tally} {r r' : QueryResult}
    (h : plain.Spares measured) (hr : r'.Spares r) (hadd : measured.add r = .ok next) :
    ∃ next', plain.add r' = .ok next' ∧ next'.Spares next := by
  obtain ⟨d, d', hd, hle, rfl⟩ := hr
  unfold Tally.add at *
  rw [hd] at hadd
  simp only [Duration.add?] at hadd ⊢
  have htime := h.time
  by_cases hfits : measured.time.nanoseconds + d.nanoseconds < Duration.limit
  · have hfits' : plain.time.nanoseconds + d'.nanoseconds < Duration.limit := by omega
    rw [if_pos hfits] at hadd
    rw [if_pos hfits']
    cases hadd
    refine ⟨_, rfl, ?_, ?_, ?_⟩
    · simp only [h.cost]
      rfl
    · simp only [h.hasWarnings]
      rfl
    · exact Nat.add_le_add htime hle
  · rw [if_neg hfits] at hadd
    cases hadd

theorem Tally.Spares.foldlM {plain measured last : Tally} {rs rs' : List QueryResult}
    (h : plain.Spares measured) (hrs : List.Forall₂ QueryResult.Spares rs' rs)
    (hfold : rs.foldlM Tally.add measured = .ok last) :
    ∃ last', rs'.foldlM Tally.add plain = .ok last' ∧ last'.Spares last := by
  induction hrs generalizing plain measured with
  | nil =>
    cases hfold
    exact ⟨plain, rfl, h⟩
  | @cons r' r rs' rs hr _ ih =>
    rw [List.foldlM_cons] at hfold ⊢
    cases hadd : measured.add r with
    | error a =>
      rw [hadd] at hfold
      cases hfold
    | ok next =>
      rw [hadd] at hfold
      obtain ⟨next', hadd', hnext⟩ := h.add hr hadd
      rw [hadd']
      exact ih hnext hfold

theorem Summary.ofResults_spares {rs rs' : List QueryResult} {summary : Summary}
    (hrs : List.Forall₂ QueryResult.Spares rs' rs) (h : Summary.ofResults rs = .ok summary) :
    ∃ summary', Summary.ofResults rs' = .ok summary' ∧
      summary'.totalCost = summary.totalCost ∧ summary'.hasWarnings = summary.hasWarnings := by
  have hfilter : List.Forall₂ QueryResult.Spares (rs'.filter QueryResult.isSuccess)
      (rs.filter QueryResult.isSuccess) :=
    List.rel_filter (fun _ _ hr => by simp only [hr.isSuccess_eq]) hrs
  unfold Summary.ofResults at *
  cases hfold : (rs.filter QueryResult.isSuccess).foldlM Tally.add {} with
  | error a =>
    rw [hfold] at h
    cases h
  | ok t =>
    rw [hfold] at h
    cases h
    obtain ⟨t', hfold', ht⟩ := Tally.Spares.foldlM ⟨rfl, rfl, Nat.le_refl _⟩ hfilter hfold
    rw [hfold']
    exact ⟨_, rfl, congrArg Decimal.truncateToSigned64 ht.cost, ht.hasWarnings⟩

theorem spares_analyzeAll {requests : List Request}
    (h : ∀ r ∈ (analyzeAll options collaborator true requests).map (·.result),
      r.isSuccess = true) :
    List.Forall₂ QueryResult.Spares
      ((analyzeAll options collaborator false requests).map (·.result))
      ((analyzeAll options collaborator true requests).map (·.result)) := by
  rw [List.forall₂_iff_get]
  refine ⟨by simp [analyzeAll], fun index h₁ h₂ => ?_⟩
  have hsuccess := h _ (List.get_mem _ ⟨index, h₂⟩)
  simp only [analyzeAll, List.get_eq_getElem, List.getElem_map, List.getElem_mapIdx] at hsuccess ⊢
  exact (spares_analyze hsuccess).result

/-! ## Sessions -/

/-- Only a session that begins has a review. -/
theorem Comes.opens {S : Setting} {review : Review} (h : Comes S (.ok review)) : S.Opens := by
  cases hv : validate S.options.maxQueries S.requests with
  | error e => cases h.eq_of_refused hv
  | ok =>
    cases hp : permitsFit S.options with
    | false => cases h.eq_of_shut hv hp
    | true => exact ⟨hv, hp⟩

/-- A query that succeeds when it is measured as well succeeds when it is not. It then has the same
verdict, tables, estimated plan, records and warnings, no measured plan and no longer a time, and
the same calls but the one that measures. So a session in which every measured query succeeds has a
review without measuring too, with the same cost and the same warnings, whichever task goes on
when. -/
theorem measuring_leaves_the_estimate_alone (options : Options) (collaborator : Collaborator) :
    (∀ index request,
      (analyze options collaborator true index request).result.isSuccess = true →
      Analyzed.Spares request.sql (analyze options collaborator false index request)
        (analyze options collaborator true index request)) ∧
    ∀ requests review,
      Comes { options, database := .of collaborator, includeActual := true, requests }
        (.ok review) →
      (∀ result ∈ review.results, result.isSuccess = true) →
      ∀ o, Comes { options, database := .of collaborator, includeActual := false, requests } o →
      ∃ review', o = .ok review' ∧
        List.Forall₂ QueryResult.Spares review'.results review.results ∧
        review'.summary.totalCost = review.summary.totalCost ∧
        review'.summary.hasWarnings = review.summary.hasWarnings := by
  refine ⟨fun index request => spares_analyze, ?_⟩
  intro requests review hcomes hall o hplain
  obtain ⟨hv, hp⟩ := hcomes.opens
  have hmeasured := hcomes.eq_run rfl
  have hplain := hplain.eq_run rfl
  rw [run_eq_reviewOf hv hp] at hmeasured hplain
  obtain ⟨hsummary, hresults⟩ := reviewOf_eq_ok_iff.mp hmeasured.symm
  rw [hresults] at hall ⊢
  have hspares := spares_analyzeAll hall
  obtain ⟨summary', hsummary', hcost, hwarnings⟩ := Summary.ofResults_spares hspares hsummary
  refine ⟨⟨_, summary'⟩, ?_, hspares, hcost, hwarnings⟩
  rw [hplain]
  exact reviewOf_eq_ok_iff.mpr ⟨hsummary', rfl⟩

/-- A query whose measured plan takes longest, and is another one than the estimated plan. -/
theorem a_query_is_slower_when_it_is_measured :
    let request : Request := { id := "a", label := "a", sql := "SELECT * FROM t" }
    let collaborator : Collaborator := fun
      | .plan .estimated _ => ⟨2, .answer "-> A"⟩
      | .plan .actual _ => ⟨5, .answer "-> B"⟩
      | .columns _ => ⟨1, .answer []⟩
      | .indexes _ => ⟨1, .answer []⟩
    (analyze {} collaborator true 0 request).result.isSuccess = true ∧
      Analyzed.Spares request.sql (analyze {} collaborator false 0 request)
        (analyze {} collaborator true 0 request) := by
  intro request collaborator
  have hsafe : Statement.classify {} request.sql = .safe := by decide +kernel
  have htables : Statement.tableNames request.sql = ["t"] := by decide +kernel
  have hadmit : admit? (Options.policy {}) request.sql = .ok ["t"] :=
    admit?_of_safe hsafe htables (by decide)
  have hsuccess : (analyze {} collaborator true 0 request).result.isSuccess = true := by
    rw [analyze_of_admitted hadmit]
    decide +kernel
  exact ⟨hsuccess, (measuring_leaves_the_estimate_alone {} collaborator).1 0 request hsuccess⟩

end QueryReview.Session
