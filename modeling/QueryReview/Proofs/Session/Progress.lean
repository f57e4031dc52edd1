-- A session neither gets stuck nor goes on for ever: until all results are there some step can be
-- done, and every row of steps has an end.
import Mathlib.Algebra.Order.BigOperators.Group.Finset
import Mathlib.Data.Prod.Lex
import Mathlib.Order.WellFounded
import QueryReview.Proofs.Session.Calls

namespace QueryReview.Session

variable {S : Setting} {s s' : Stage} {now index : Nat} {request : Request}

/-! ## A step can be done -/

theorem Reaches.query_of_task (h : Reaches S s) {task : Task} (ht : s.tasks[index]? = some task) :
    ∃ request, S.queries[index]? = some request := by
  have hlt : index < s.tasks.length := (List.getElem?_eq_some_iff.mp ht).1
  have hle := h.ordered.spawned
  exact ⟨_, List.getElem?_eq_getElem (by omega)⟩

/-- A session whose query can do a step can do one. -/
theorem Reaches.step_of_task (h : Reaches S s) {task : Task} (ht : task ∈ s.tasks)
    (hs : ∀ index request, ∃ sent task', Task.Step S s.clock index request task sent task') :
    ∃ s', Stage.Step S s s' := by
  obtain ⟨index, hindex⟩ := List.mem_iff_getElem?.mp ht
  obtain ⟨request, hq⟩ := h.query_of_task hindex
  obtain ⟨sent, task', hstep⟩ := hs index request
  exact ⟨_, .work hindex hq hstep⟩

theorem Task.step_of_thinking (hd : ∀ call, ∃ reply, S.database call reply)
    (tables : List String) (began : Nat) (rest : Dialogue Fetched) :
    ∃ sent task', Task.Step S now index request (.thinking tables began rest) sent task' := by
  cases rest with
  | done fetched => exact ⟨_, _, .conclude⟩
  | ask call next =>
    obtain ⟨reply, hreply⟩ := hd call
    exact ⟨_, _, .send hreply⟩

theorem Task.step_of_admitted (S : Setting) (now index : Nat) (request : Request) :
    ∃ sent task', Task.Step S now index request .admitted sent task' := by
  cases ha : admit? S.options.policy request.sql with
  | error e => exact ⟨_, _, .refuse ha⟩
  | ok tables => exact ⟨_, _, .begin ha⟩

/-- A task whose call has come to its end, or to the end of its time, can go on. -/
theorem Task.step_of_due {tables : List String} {began sent : Nat} {call : Call}
    {reply : Reply call.Answer} {next : call.Answer → Dialogue Fetched}
    (hi : (waiting tables began sent call reply next).IdlesUntil S.options.timeLimit? now)
    (hdue : ¬ (waiting tables began sent call reply next).IdlesUntil S.options.timeLimit?
      (now + 1)) :
    ∃ es task', Task.Step S now index request (waiting tables began sent call reply next) es
      task' := by
  obtain ⟨hreply, hlimit⟩ := hi
  by_cases hnow : now = sent + reply.delay
  · have ht : InTime S.options.timeLimit? (now - began) := by
      cases hl : S.options.timeLimit? with
      | none => rfl
      | some limit =>
        have hle := hlimit limit hl
        simp only [InTime, exceeded?, Option.filter_some_eq_none, decide_eq_true_eq]
        omega
    cases ho : reply.outcome with
    | answer a => exact ⟨_, _, .hear hnow ht ho⟩
    | failure f => exact ⟨_, _, .fail hnow ht ho⟩
    | panic words => exact ⟨_, _, .panic hnow ht ho⟩
  · have hlt : now < sent + reply.delay := by omega
    obtain ⟨limit, hl, hat⟩ : ∃ limit, S.options.timeLimit? = some limit ∧ now = began + limit := by
      by_contra hcon
      refine hdue ⟨hlt, ?_⟩
      intro limit hl
      have hle := hlimit limit hl
      have hne : now ≠ began + limit := fun he => hcon ⟨limit, hl, he⟩
      omega
    exact ⟨_, _, .expire hl hat hlt⟩

theorem Reaches.idlesUntil (h : Reaches S s) {task : Task} (ht : task ∈ s.tasks)
    (hw : task.isWaiting = true) : task.IdlesUntil S.options.timeLimit? s.clock := by
  obtain ⟨index, hindex⟩ := List.mem_iff_getElem?.mp ht
  obtain ⟨request, hq⟩ := h.query_of_task hindex
  have hfits := h.fits hindex hq
  cases task with
  | waiting tables began sent call reply next =>
    obtain ⟨_, _, _, _, _, _, hidle⟩ := hfits
    exact hidle
  | _ => cases hw

/-- Some call is out, and no task is thinking: a task wakes up, or time goes by. -/
theorem Reaches.step_of_waiting (h : Reaches S s)
    (hn : ∀ tables began rest, .thinking tables began rest ∉ s.tasks)
    (hw : ∃ task ∈ s.tasks, task.isWaiting = true) : ∃ s', Stage.Step S s s' := by
  by_cases hidle : ∀ task ∈ s.tasks, task.IdlesUntil S.options.timeLimit? (s.clock + 1)
  · exact ⟨_, .pass (Nat.lt_succ_self _) hw hidle⟩
  · simp only [not_forall] at hidle
    obtain ⟨task, ht, hdue⟩ := hidle
    cases task with
    | thinking tables began rest => exact absurd ht (hn tables began rest)
    | waiting tables began sent call reply next =>
      refine h.step_of_task ht fun index request => ?_
      exact Task.step_of_due (h.idlesUntil ht rfl) hdue
    | _ => exact absurd trivial hdue

/-- All tasks that have been started have ended: one is taken down, or the next one is started. -/
theorem Reaches.step_of_ended (h : Reaches S s) (he : ∀ task ∈ s.tasks, ∃ e, task = .ended e)
    (hlt : s.results.length < S.queries.length) : ∃ s', Stage.Step S s s' := by
  have hspawned := h.ordered.spawned
  have hjoined := h.ordered.joined
  by_cases hall : s.results.length = s.tasks.length
  · exact ⟨_, .spawn (by omega) fun _ => hall⟩
  · have hin : s.results.length < s.tasks.length := by omega
    obtain ⟨e, hend⟩ := he _ (List.getElem_mem hin)
    have htask : s.tasks[s.results.length]? = some (.ended e) := by
      rw [← hend]
      exact List.getElem?_eq_getElem hin
    obtain ⟨request, hq⟩ := h.query_of_task htask
    by_cases hopen : S.options.mode = .parallel ∧ s.tasks.length < S.queries.length
    · refine ⟨_, .spawn hopen.2 fun hm => ?_⟩
      rw [hopen.1] at hm
      cases hm
    · refine ⟨_, .join htask hq fun hm => ?_⟩
      have hge : ¬ s.tasks.length < S.queries.length := fun hcon => hopen ⟨hm, hcon⟩
      omega

/-- Until all results are there, some step can be done. -/
theorem Reaches.progress (h : Reaches S s) (hd : ∀ call, ∃ reply, S.database call reply)
    (hlt : s.results.length < S.queries.length) : ∃ s', Stage.Step S s s' := by
  by_cases hthink : ∃ tables began rest, .thinking tables began rest ∈ s.tasks
  · obtain ⟨tables, began, rest, ht⟩ := hthink
    exact h.step_of_task ht fun _ _ => Task.step_of_thinking hd tables began rest
  by_cases hwait : ∃ task ∈ s.tasks, task.isWaiting = true
  · refine h.step_of_waiting ?_ hwait
    intro tables began rest ht
    exact hthink ⟨tables, began, rest, ht⟩
  by_cases hadmit : .admitted ∈ s.tasks
  · exact h.step_of_task hadmit (Task.step_of_admitted S s.clock)
  -- No task holds a permit.
  have hout : ∀ task ∈ s.tasks, task = .queued ∨ ∃ e, task = .ended e := by
    intro task ht
    cases task with
    | queued => exact Or.inl rfl
    | admitted => exact absurd ht hadmit
    | thinking tables began rest => exact absurd ⟨tables, began, rest, ht⟩ hthink
    | waiting tables began sent call reply next => exact absurd ⟨_, ht, rfl⟩ hwait
    | ended e => exact Or.inr ⟨e, rfl⟩
  by_cases hqueue : .queued ∈ s.tasks
  · obtain ⟨index, hindex⟩ := List.mem_iff_getElem?.mp hqueue
    have hnone : s.tasks.countP Task.isInside = 0 := by
      rw [List.countP_eq_zero]
      intro task ht
      rcases hout task ht with rfl | ⟨e, rfl⟩
      · exact Bool.false_ne_true
      · exact Bool.false_ne_true
    refine ⟨_, .enter hindex ?_⟩
    rw [hnone]
    exact Nat.lt_of_lt_of_le Nat.zero_lt_one (Nat.le_max_right _ _)
  · refine h.step_of_ended ?_ hlt
    intro task ht
    rcases hout task ht with rfl | he
    · exact absurd ht hqueue
    · exact he

/-! ## Every row of steps has an end -/

/-- The place of a task's state in the round of sending and hearing. -/
def Task.rank : Task → Nat
  | queued => 0
  | admitted => 1
  | waiting .. => 2
  | thinking .. => 3
  | ended _ => 4

/-- The time until the reply to the call that is out. -/
def Task.patience (clock : Nat) : Task → Nat
  | waiting _ _ sent _ reply _ => sent + reply.delay - clock
  | _ => 0

/-- What has been done for the query at the given place. Each step of its task adds to it. -/
def Stage.effortFor (s : Stage) (index : Nat) : Nat :=
  2 * (s.exchangesOf index).length + s.tasks[index]?.elim 0 Task.rank

/-- What has been done so far. Each step but the passing of time adds to it. -/
def Stage.effort (S : Setting) (s : Stage) : Nat :=
  ∑ index ∈ Finset.range S.queries.length, s.effortFor index + s.tasks.length + s.results.length

/-- The time until all replies, which gets less when time goes by. -/
def Stage.patience (S : Setting) (s : Stage) : Nat :=
  ∑ index ∈ Finset.range S.queries.length, s.tasks[index]?.elim 0 (Task.patience s.clock)

/-- More than that cannot be done. -/
def Setting.mostEffort (S : Setting) : Nat :=
  ∑ index ∈ Finset.range S.queries.length, (2 * (S.queries[index]?.elim 0 fun request =>
    (script request.sql (Statement.tableNames request.sql) S.includeActual).length) + 4)
    + S.queries.length + S.queries.length

theorem Task.rank_le (task : Task) : task.rank ≤ 4 := by
  cases task <;> simp [rank]

theorem Task.Step.rank_lt {task task' : Task} {sent : List Exchange}
    (h : Task.Step S now index request task sent task') :
    task.rank < 2 * sent.length + task'.rank := by
  cases h <;> simp [rank]

theorem Stage.effortFor_set (s : Stage) {index i : Nat} (hne : index ≠ i) (task' : Task)
    (sent : List Exchange) :
    Stage.effortFor { s with
      tasks := s.tasks.set index task', log := s.log ++ sent.map (index, ·) } i
      = s.effortFor i := by
  unfold effortFor
  rw [exchangesOf_work, if_neg hne, List.append_nil, List.getElem?_set_ne hne]

theorem Stage.effortFor_set_self (s : Stage) {index : Nat} {task task' : Task}
    {sent : List Exchange} (ht : s.tasks[index]? = some task)
    (hlt : task.rank < 2 * sent.length + task'.rank) :
    s.effortFor index < Stage.effortFor { s with
      tasks := s.tasks.set index task', log := s.log ++ sent.map (index, ·) } index := by
  have hin : index < s.tasks.length := (List.getElem?_eq_some_iff.mp ht).1
  unfold effortFor
  rw [exchangesOf_work, if_pos rfl, List.getElem?_set_self hin, ht]
  simp only [Option.elim_some, List.length_append]
  omega

theorem Reaches.effort_lt_of_set (h : Reaches S s) {task task' : Task} {sent : List Exchange}
    (ht : s.tasks[index]? = some task) (hlt : task.rank < 2 * sent.length + task'.rank) :
    s.effort S < Stage.effort S { s with
      tasks := s.tasks.set index task', log := s.log ++ sent.map (index, ·) } := by
  have hin : index < S.queries.length := by
    have h₁ : index < s.tasks.length := (List.getElem?_eq_some_iff.mp ht).1
    have h₂ := h.ordered.spawned
    omega
  have hsum := Finset.sum_lt_sum (s := Finset.range S.queries.length) (f := s.effortFor)
    (g := Stage.effortFor { s with
      tasks := s.tasks.set index task', log := s.log ++ sent.map (index, ·) })
    (fun i _ => by
      by_cases hi : index = i
      · subst hi
        exact (s.effortFor_set_self ht hlt).le
      · exact (s.effortFor_set hi task' sent).ge)
    ⟨index, Finset.mem_range.mpr hin, s.effortFor_set_self ht hlt⟩
  unfold Stage.effort
  simp only [List.length_set]
  omega

theorem Stage.effort_lt_of_spawn (S : Setting) (s : Stage) :
    s.effort S < Stage.effort S { s with tasks := s.tasks ++ [S.fresh] } := by
  have hsum : ∑ i ∈ Finset.range S.queries.length, s.effortFor i
      ≤ ∑ i ∈ Finset.range S.queries.length,
        Stage.effortFor { s with tasks := s.tasks ++ [S.fresh] } i := by
    refine Finset.sum_le_sum fun i _ => ?_
    unfold effortFor
    refine Nat.add_le_add (Nat.le_refl _) ?_
    by_cases hi : i < s.tasks.length
    · rw [List.getElem?_append_left hi]
    · rw [List.getElem?_eq_none (Nat.le_of_not_lt hi)]
      exact Nat.zero_le _
  unfold Stage.effort
  simp only [List.length_append, List.length_singleton]
  omega

theorem Reaches.patience_lt_of_pass (h : Reaches S s) {later : Nat} (hlt : s.clock < later)
    (hw : ∃ task ∈ s.tasks, task.isWaiting = true)
    (hi : ∀ task ∈ s.tasks, task.IdlesUntil S.options.timeLimit? later) :
    Stage.patience S { s with clock := later } < s.patience S := by
  obtain ⟨task, ht, hwait⟩ := hw
  obtain ⟨index, hindex⟩ := List.mem_iff_getElem?.mp ht
  obtain ⟨request, hq⟩ := h.query_of_task hindex
  refine Finset.sum_lt_sum ?_ ⟨index, Finset.mem_range.mpr (List.getElem?_eq_some_iff.mp hq).1, ?_⟩
  · intro i _
    cases s.tasks[i]? with
    | none => exact Nat.le_refl _
    | some task =>
      cases task with
      | waiting tables began sent call reply next =>
        simp only [Option.elim_some, Task.patience]
        omega
      | _ => exact Nat.le_refl _
  · have hidle := hi task ht
    cases task with
    | waiting tables began sent call reply next =>
      have hle : later ≤ sent + reply.delay := hidle.1
      simp only [hindex, Option.elim_some, Task.patience]
      omega
    | _ => cases hwait

/-- A step adds to what has been done, or time goes by. -/
theorem Reaches.effort_of_step (h : Reaches S s) (hs : Stage.Step S s s') :
    s.effort S < s'.effort S ∨ (s.effort S = s'.effort S ∧ s'.patience S < s.patience S) := by
  cases hs with
  | spawn _ _ => exact Or.inl (s.effort_lt_of_spawn S)
  | @enter index ht _ =>
    left
    have hrank : Task.rank .queued < 2 * ([] : List Exchange).length + Task.rank .admitted := by
      simp [Task.rank]
    have hlt := h.effort_lt_of_set ht hrank
    simpa using hlt
  | work ht _ hstep => exact Or.inl (h.effort_lt_of_set ht hstep.rank_lt)
  | pass hlt hw hi => exact Or.inr ⟨rfl, h.patience_lt_of_pass hlt hw hi⟩
  | join _ _ _ =>
    left
    unfold Stage.effort Stage.effortFor Stage.exchangesOf
    simp only [List.length_append, List.length_singleton]
    omega

theorem Reaches.effort_le (h : Reaches S s) : s.effort S ≤ S.mostEffort := by
  have hsum : ∑ i ∈ Finset.range S.queries.length, s.effortFor i
      ≤ ∑ i ∈ Finset.range S.queries.length, (2 * (S.queries[i]?.elim 0 fun request =>
        (script request.sql (Statement.tableNames request.sql) S.includeActual).length) + 4) := by
    refine Finset.sum_le_sum fun i hi => ?_
    have hlen : i < S.queries.length := Finset.mem_range.mp hi
    have hlaw := (h.lawful (List.getElem?_eq_getElem hlen)).inOrder.length_le
    rw [List.length_map] at hlaw
    have hrank : s.tasks[i]?.elim 0 Task.rank ≤ 4 := by
      cases s.tasks[i]? with
      | none => exact Nat.zero_le _
      | some task => exact task.rank_le
    unfold Stage.effortFor
    simp only [List.getElem?_eq_getElem hlen, Option.elim_some]
    omega
  have hspawned := h.ordered.spawned
  have hjoined := h.ordered.joined
  unfold Stage.effort Setting.mostEffort
  omega

/-- No session goes on for ever. -/
theorem Setting.no_endless_session (hopen : S.Opens) :
    ¬ ∃ f : Nat → Stage, f 0 = {} ∧ ∀ n, Stage.Step S (f n) (f (n + 1)) := by
  rintro ⟨f, hstart, hstep⟩
  have hreach : ∀ n, Reaches S (f n) := by
    intro n
    induction n with
    | zero =>
      rw [hstart]
      exact .start
    | succ n ih => exact .step hopen ih (hstep n)
  obtain ⟨n, hn⟩ := WellFounded.not_rel_apply_succ (r := (· < ·)) fun n =>
    toLex (S.mostEffort - (f n).effort S, (f n).patience S)
  refine hn ?_
  rw [Prod.Lex.toLex_lt_toLex]
  have hle := (hreach (n + 1)).effort_le
  rcases (hreach n).effort_of_step (hstep n) with hlt | ⟨heq, hlt⟩
  · exact Or.inl (by omega)
  · exact Or.inr ⟨by omega, hlt⟩

end QueryReview.Session
