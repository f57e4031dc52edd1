-- What the steps of a session keep in order: tasks are started and taken down in the order of the
-- requests, and in sequential mode one is taken down before the next one is started.
import QueryReview.Proofs.Session.Schedule

namespace QueryReview.Session

variable {S : Setting} {s s' : Stage}

namespace Task

theorem Step.not_queued {now index : Nat} {request : Request} {task task' : Task}
    {sent : List Exchange} (h : Task.Step S now index request task sent task') :
    task' ≠ .queued := by
  cases h <;> simp

end Task

namespace Stage

/-- What is true of every stage, whatever the order of the steps. -/
structure Ordered (S : Setting) (s : Stage) : Prop where
  spawned : s.tasks.length ≤ S.queries.length
  joined : s.results.length ≤ s.tasks.length
  logged : ∀ p ∈ s.log, p.1 < s.tasks.length
  /-- What has been taken down came from a task that has ended. -/
  taken : ∀ index < s.results.length, ∃ request e, S.queries[index]? = some request ∧
    s.tasks[index]? = some (.ended e) ∧ s.results[index]? = some (e.result index request)

/-- What is true of every stage in sequential mode. -/
structure OneByOne (s : Stage) : Prop where
  /-- At most one task has not been taken down. -/
  last : s.tasks.length ≤ s.results.length + 1
  unqueued : .queued ∉ s.tasks
  /-- The calls for an earlier request stand first. -/
  log : s.log.map (·.2) = (List.range s.tasks.length).flatMap s.exchangesOf

/-! ## Every stage is ordered -/

theorem Ordered.start : Ordered S {} where
  spawned := Nat.zero_le _
  joined := Nat.le_refl _
  logged := by simp
  taken := by simp

/-- A task that has ended stays as it is when another one is put in the place of one that has
not. -/
theorem Ordered.set (h : s.Ordered S) {index : Nat} {task task' : Task}
    (ht : s.tasks[index]? = some task) (hne : ∀ e, task ≠ .ended e) {log : List (Nat × Exchange)}
    (hl : ∀ p ∈ log, p.1 < s.tasks.length) :
    Ordered S { s with tasks := s.tasks.set index task', log } where
  spawned := by simpa using h.spawned
  joined := by simpa using h.joined
  logged := by simpa using hl
  taken := by
    intro i hi
    obtain ⟨request, e, hr, he, hres⟩ := h.taken i hi
    refine ⟨request, e, hr, ?_, hres⟩
    have hij : index ≠ i := by
      rintro rfl
      rw [ht] at he
      exact hne e (Option.some.inj he)
    rw [← he]
    exact List.getElem?_set_ne hij

theorem Ordered.step (h : s.Ordered S) (hs : Stage.Step S s s') : s'.Ordered S := by
  cases hs with
  | spawn hlt _ =>
    refine ⟨?_, ?_, ?_, ?_⟩
    · simpa using Nat.succ_le_of_lt hlt
    · have := h.joined
      simp only [List.length_append, List.length_singleton]
      omega
    · intro p hp
      have := h.logged p hp
      simp only [List.length_append, List.length_singleton]
      omega
    · intro i hi
      obtain ⟨request, e, hr, he, hres⟩ := h.taken i hi
      refine ⟨request, e, hr, ?_, hres⟩
      have hlt : i < s.tasks.length := (List.getElem?_eq_some_iff.mp he).1
      rw [← he]
      exact List.getElem?_append_left hlt
  | enter ht _ => exact h.set ht (by simp) h.logged
  | @work index request task task' sent ht hr hstep =>
    refine h.set ht ?_ ?_
    · rintro e rfl
      cases hstep
    · intro p hp
      rcases List.mem_append.mp hp with hp | hp
      · exact h.logged p hp
      · obtain ⟨e, _, rfl⟩ := List.mem_map.mp hp
        exact (List.getElem?_eq_some_iff.mp ht).1
  | pass _ _ _ => exact ⟨h.spawned, h.joined, h.logged, h.taken⟩
  | @join request e he hr _ =>
    have hlt : s.results.length < s.tasks.length := (List.getElem?_eq_some_iff.mp he).1
    refine ⟨h.spawned, by simpa using Nat.succ_le_of_lt hlt, h.logged, ?_⟩
    intro i hi
    simp only [List.length_append, List.length_singleton] at hi
    by_cases hi' : i < s.results.length
    · obtain ⟨request', e', hr', he', hres⟩ := h.taken i hi'
      refine ⟨request', e', hr', he', ?_⟩
      rw [← hres]
      exact List.getElem?_append_left hi'
    · obtain rfl : i = s.results.length := by omega
      exact ⟨request, e, hr, he, List.getElem?_concat_length⟩

end Stage

theorem Reaches.ordered (h : Reaches S s) : s.Ordered S := by
  induction h with
  | start => exact .start
  | step _ _ hs ih => exact ih.step hs

/-! ## Sequential mode -/

namespace Stage

/-- In sequential mode the one task that does a step is the last one. -/
theorem OneByOne.eq_last (h : s.OneByOne) (ho : s.Ordered S) {index : Nat} {task : Task}
    (ht : s.tasks[index]? = some task) (hne : ∀ e, task ≠ .ended e) :
    s.tasks.length = index + 1 := by
  have hlt : index < s.tasks.length := (List.getElem?_eq_some_iff.mp ht).1
  have hlast := h.last
  have hge : s.results.length ≤ index := by
    refine Nat.le_of_not_lt fun hcon => ?_
    obtain ⟨_, e, _, he, _⟩ := ho.taken index hcon
    rw [ht] at he
    exact hne e (Option.some.inj he)
  omega

theorem OneByOne.start : OneByOne {} where
  last := Nat.zero_le _
  unqueued := by simp
  log := rfl

theorem OneByOne.spawn (h : s.OneByOne) (ho : s.Ordered S)
    (hlen : s.results.length = s.tasks.length) :
    OneByOne { s with tasks := s.tasks ++ [.admitted] } where
  last := by simp [hlen]
  unqueued := by simpa using h.unqueued
  log := by
    have hnil : s.exchangesOf s.tasks.length = [] := exchangesOf_eq_nil ho.logged (Nat.le_refl _)
    simp only [List.length_append, List.length_singleton, List.range_succ, List.flatMap_append,
      List.flatMap_singleton]
    have hlog := h.log
    unfold exchangesOf at *
    rw [hnil, List.append_nil]
    exact hlog

theorem OneByOne.work (h : s.OneByOne) (ho : s.Ordered S) {index now : Nat} {request : Request}
    {task task' : Task} {sent : List Exchange} (ht : s.tasks[index]? = some task)
    (hs : Task.Step S now index request task sent task') :
    OneByOne { s with tasks := s.tasks.set index task', log := s.log ++ sent.map (index, ·) } := by
  have hlen : s.tasks.length = index + 1 := by
    refine h.eq_last ho ht ?_
    rintro e rfl
    cases hs
  refine ⟨by simpa using h.last, ?_, ?_⟩
  · intro hq
    rcases List.mem_or_eq_of_mem_set hq with hq | hq
    · exact h.unqueued hq
    · exact hs.not_queued hq.symm
  · -- Only the calls of the last query have become more.
    have hold : (List.range index).flatMap (Stage.exchangesOf
        { s with tasks := s.tasks.set index task', log := s.log ++ sent.map (index, ·) })
        = (List.range index).flatMap s.exchangesOf := by
      rw [List.flatMap_def, List.flatMap_def]
      congr 1
      refine List.map_congr_left fun i hi => ?_
      have hne : index ≠ i := by
        have := List.mem_range.mp hi
        omega
      rw [exchangesOf_work, if_neg hne, List.append_nil]
    have hlog := h.log
    rw [hlen, List.range_succ, List.flatMap_append, List.flatMap_singleton] at hlog
    simp only [List.length_set, hlen, List.range_succ, List.flatMap_append, List.flatMap_singleton,
      List.map_append, hold, exchangesOf_work, if_true, hlog, List.append_assoc, List.map_map]
    simp [Function.comp_def]

end Stage

theorem Reaches.oneByOne (h : Reaches S s) (hm : S.options.mode = .sequential) : s.OneByOne := by
  induction h with
  | start => exact .start
  | @step s s' _ hr hs ih =>
    have ho := hr.ordered
    cases hs with
    | spawn _ hlen =>
      have hfresh : S.fresh = .admitted := by simp [Setting.fresh, hm]
      rw [hfresh]
      exact ih.spawn ho (hlen hm)
    | enter ht _ => exact absurd (List.mem_of_getElem? ht) ih.unqueued
    | work ht _ hstep => exact ih.work ho ht hstep
    | pass _ _ _ => exact ⟨ih.last, ih.unqueued, ih.log⟩
    | join he _ _ =>
      refine ⟨?_, ih.unqueued, ih.log⟩
      have := ih.last
      simp only [List.length_append, List.length_singleton]
      omega

end QueryReview.Session
