-- How far the task of a query has come hangs on its own exchanges alone. Neither the other tasks
-- nor the time it waited for a permit have a part in it: its time is counted from its start, and
-- is the time that its calls took.
import QueryReview.Proofs.Session.Order

namespace QueryReview.Session

variable {S : Setting} {s : Stage} {now index : Nat} {request : Request} {es : List Exchange}

/-- The exchanges of a query have brought its task to the given end. -/
inductive Fate (S : Setting) (index : Nat) (request : Request) : List Exchange → TaskEnd → Prop
  /-- It was refused, and nothing has been sent. -/
  | refused {error : QueryError} :
      admit? S.options.policy request.sql = .error error →
      Fate S index request [] (.returned (.failed index request [] error))
  /-- Its dialogue was brought to an end. -/
  | fetched {tables : List String} {es : List Exchange} {elapsed : Nat}
      {ending : Ending Fetched} {e : TaskEnd} :
      admit? S.options.policy request.sql = .ok tables →
      (askAll request.sql tables S.includeActual).Ends S.options.timeLimit? es elapsed ending →
      e.result index request
        = resultOf index request tables { calls := es.map (·.call), elapsed, ending } →
      Fate S index request es e

/-- The task of a query, its exchanges and the clock fit together. -/
def Task.Fits (S : Setting) (now index : Nat) (request : Request) : Task → List Exchange → Prop
  | queued, es => es = []
  | admitted, es => es = []
  | thinking tables began rest, es =>
    admit? S.options.policy request.sql = .ok tables ∧
      (askAll request.sql tables S.includeActual).Heard es rest ∧
      InTime S.options.timeLimit? (spent es) ∧ now = began + spent es
  | waiting tables began sent call reply next, es =>
    admit? S.options.policy request.sql = .ok tables ∧ ∃ front, es = front ++ [⟨call, reply⟩] ∧
      (askAll request.sql tables S.includeActual).Heard front (.ask call next) ∧
      InTime S.options.timeLimit? (spent front) ∧ sent = began + spent front ∧
      (waiting tables began sent call reply next).IdlesUntil S.options.timeLimit? now
  | ended e, es => Fate S index request es e

namespace Task

theorem fits_fresh (S : Setting) (now index : Nat) (request : Request) :
    S.fresh.Fits S now index request [] := by
  unfold Setting.fresh
  split
  · rfl
  · rfl

/-! ## What a step of the task keeps -/

theorem fits_begin {tables : List String} (ha : admit? S.options.policy request.sql = .ok tables) :
    (thinking tables now (askAll request.sql tables S.includeActual)).Fits S now index request
      [] := by
  refine ⟨ha, .nothing, inTime_zero _, ?_⟩
  simp

theorem Fits.send {tables : List String} {began : Nat} {call : Call}
    {next : call.Answer → Dialogue Fetched} {reply : Reply call.Answer}
    (h : (thinking tables began (.ask call next)).Fits S now index request es) :
    (waiting tables began now call reply next).Fits S now index request
      (es ++ [⟨call, reply⟩]) := by
  obtain ⟨ha, hh, ht, rfl⟩ := h
  refine ⟨ha, es, rfl, hh, ht, rfl, Nat.le_add_right _ _, ?_⟩
  intro limit hl
  have hle : spent es ≤ limit := by
    simpa [InTime, exceeded?, Option.mem_def.mp hl] using ht
  omega

/-- When its reply is there in time, the time of the task is the time that its calls took. -/
theorem inTime_of_reply {began sent : Nat} {front : List Exchange} {call : Call}
    {reply : Reply call.Answer} (hs : sent = began + spent front)
    (hnow : now = sent + reply.delay) (ht : InTime S.options.timeLimit? (now - began)) :
    InTime S.options.timeLimit? (spent front + reply.delay) := by
  have heq : spent front + reply.delay = now - began := by omega
  rw [heq]
  exact ht

theorem Fits.step {task task' : Task} {sent : List Exchange}
    (h : task.Fits S now index request es)
    (hs : Task.Step S now index request task sent task') :
    task'.Fits S now index request (es ++ sent) := by
  cases hs with
  | refuse ha =>
    obtain rfl : es = [] := h
    exact .refused ha
  | begin ha =>
    obtain rfl : es = [] := h
    exact fits_begin ha
  | send _ => exact h.send
  | hear hnow ht ho =>
    obtain ⟨ha, front, rfl, hh, _, hsent, _⟩ := h
    have hin := inTime_of_reply hsent hnow ht
    rw [List.append_nil]
    refine ⟨ha, hh.answer ho, ?_, ?_⟩
    · simpa using hin
    · simp only [spent_concat]
      omega
  | fail hnow ht ho =>
    obtain ⟨ha, front, rfl, hh, _, hsent, _⟩ := h
    rw [List.append_nil]
    exact .fetched ha (.failed hh (inTime_of_reply hsent hnow ht) ho) rfl
  | panic hnow ht ho =>
    obtain ⟨ha, front, rfl, hh, _, hsent, _⟩ := h
    rw [List.append_nil]
    exact .fetched ha (.panicked hh (inTime_of_reply hsent hnow ht) ho) rfl
  | expire hl hnow hlate =>
    obtain ⟨ha, front, rfl, hh, ht, hsent, _⟩ := h
    rw [List.append_nil]
    refine .fetched ha (.timedOut hh ht (exceeded?_of_lt hl ?_)) rfl
    omega
  | conclude =>
    obtain ⟨ha, hh, ht, hnow⟩ := h
    rw [List.append_nil]
    refine .fetched ha (.finished hh ht) ?_
    have heq : now - _ = spent es := Nat.sub_eq_of_eq_add' hnow
    rw [heq]
    rfl

/-- Time that goes by while the task idles changes nothing for it. -/
theorem Fits.pass {task : Task} {later : Nat} (h : task.Fits S now index request es)
    (hi : task.IdlesUntil S.options.timeLimit? later) : task.Fits S later index request es := by
  cases task with
  | queued => exact h
  | admitted => exact h
  | thinking tables began rest => exact absurd hi id
  | waiting tables began sent call reply next =>
    obtain ⟨ha, front, he, hh, ht, hsent, _⟩ := h
    exact ⟨ha, front, he, hh, ht, hsent, hi⟩
  | ended e => exact h

end Task

/-! ## What the steps of the session keep -/

/-- A task that is put in a place of the list stands there, and the others stay. -/
theorem getElem?_set_cases {tasks : List Task} {i j : Nat} {task task' : Task}
    (h : (tasks.set i task')[j]? = some task) :
    (i = j ∧ task = task') ∨ (i ≠ j ∧ tasks[j]? = some task) := by
  by_cases hij : i = j
  · subst hij
    have hlt : i < (tasks.set i task').length := (List.getElem?_eq_some_iff.mp h).1
    rw [List.length_set] at hlt
    rw [List.getElem?_set_self hlt] at h
    exact Or.inl ⟨rfl, (Option.some.inj h).symm⟩
  · rw [List.getElem?_set_ne hij] at h
    exact Or.inr ⟨hij, h⟩

theorem Reaches.fits (h : Reaches S s) :
    ∀ {index : Nat} {request : Request} {task : Task}, s.tasks[index]? = some task →
      S.queries[index]? = some request →
      task.Fits S s.clock index request (s.exchangesOf index) := by
  induction h with
  | start =>
    intro index request task ht _
    simp at ht
  | @step s s' _ hr hs ih =>
    intro index request task ht hq
    cases hs with
    | spawn _ _ =>
      by_cases hlt : index < s.tasks.length
      · rw [List.getElem?_append_left hlt] at ht
        exact ih ht hq
      · have hnil := Stage.exchangesOf_eq_nil hr.ordered.logged (Nat.le_of_not_lt hlt)
        rw [List.getElem?_append_right (Nat.le_of_not_lt hlt), List.getElem?_singleton] at ht
        split at ht
        · obtain rfl := Option.some.inj ht
          have hfresh := Task.fits_fresh S s.clock index request
          rw [← hnil] at hfresh
          exact hfresh
        · cases ht
    | enter hold _ =>
      rcases getElem?_set_cases ht with ⟨rfl, rfl⟩ | ⟨_, ht⟩
      · have hnil : s.exchangesOf _ = [] := ih hold hq
        exact hnil
      · exact ih ht hq
    | @work i request' old new sent hold hreq hstep =>
      rw [Stage.exchangesOf_work]
      rcases getElem?_set_cases ht with ⟨rfl, rfl⟩ | ⟨hne, ht⟩
      · rw [hreq] at hq
        obtain rfl := Option.some.inj hq
        rw [if_pos rfl]
        exact (ih hold hreq).step hstep
      · rw [if_neg hne, List.append_nil]
        exact ih ht hq
    | pass _ _ hidle => exact (ih ht hq).pass (hidle task (List.mem_of_getElem? ht))
    | join _ _ _ => exact ih ht hq

/-- What has been taken down for a query is the end that its exchanges brought it to. -/
theorem Reaches.fate (h : Reaches S s) {result : QueryResult}
    (hr : s.results[index]? = some result) (hq : S.queries[index]? = some request) :
    ∃ e, Fate S index request (s.exchangesOf index) e ∧ result = e.result index request := by
  have hlt : index < s.results.length := (List.getElem?_eq_some_iff.mp hr).1
  obtain ⟨request', e, hq', he, hres⟩ := h.ordered.taken index hlt
  rw [hq] at hq'
  obtain rfl := Option.some.inj hq'
  rw [hr] at hres
  exact ⟨e, h.fits he hq, Option.some.inj hres⟩

end QueryReview.Session
