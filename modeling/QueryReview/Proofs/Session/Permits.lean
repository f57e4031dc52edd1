-- The permits of parallel mode. A semaphore holds as many permits as queries may run at once, a
-- task takes one before it starts, and gives it back when it ends, however it ends. Whichever task
-- goes on when, no permit is lost and none is made, so that no query waits for ever behind one
-- that failed or panicked.
import QueryReview.Proofs.Session.Independence

namespace QueryReview.Session

/-! ## A session with its semaphore -/

/-- The permits of a session: how many are free, and the places of the tasks that hold one. -/
structure Semaphore where
  free : Nat
  holders : List Nat := []
deriving DecidableEq, Repr

/-- A task takes a permit, of which one must be free. -/
def Semaphore.acquire (m : Semaphore) (index : Nat) : Semaphore :=
  { free := m.free - 1, holders := index :: m.holders }

/-- A task that is gone gives its permit back, if it holds one. -/
def Semaphore.release (m : Semaphore) (index : Nat) : Semaphore :=
  if index ∈ m.holders then { free := m.free + 1, holders := m.holders.erase index } else m

/-- The state of a session in parallel mode, and of the semaphore at its gate. -/
structure Gated where
  stage : Stage := {}
  semaphore : Semaphore

namespace Gated

/-- One step of a session in parallel mode. It is the semaphore that says who may go on, and it is
told of nothing but the end of a task. -/
inductive Step (S : Setting) (g : Gated) : Gated → Prop
  | spawn :
      g.stage.tasks.length < S.queries.length →
      Step S g { g with stage := { g.stage with tasks := g.stage.tasks ++ [.queued] } }
  | acquire {index : Nat} :
      g.stage.tasks[index]? = some .queued → 0 < g.semaphore.free →
      Step S g {
        stage := { g.stage with tasks := g.stage.tasks.set index .admitted }
        semaphore := g.semaphore.acquire index }
  | work {index : Nat} {request : Request} {task task' : Task} {sent : List Exchange} :
      g.stage.tasks[index]? = some task → S.queries[index]? = some request →
      Task.Step S g.stage.clock index request task sent task' → (∀ e, task' ≠ .ended e) →
      Step S g { g with stage := { g.stage with
        tasks := g.stage.tasks.set index task'
        log := g.stage.log ++ sent.map (index, ·) } }
  | finish {index : Nat} {request : Request} {task : Task} {e : TaskEnd} {sent : List Exchange} :
      g.stage.tasks[index]? = some task → S.queries[index]? = some request →
      Task.Step S g.stage.clock index request task sent (.ended e) →
      Step S g {
        stage := { g.stage with
          tasks := g.stage.tasks.set index (.ended e)
          log := g.stage.log ++ sent.map (index, ·) }
        semaphore := g.semaphore.release index }
  | pass {later : Nat} :
      g.stage.clock < later → (∃ task ∈ g.stage.tasks, task.isWaiting = true) →
      (∀ task ∈ g.stage.tasks, task.IdlesUntil S.options.timeLimit? later) →
      Step S g { g with stage := { g.stage with clock := later } }
  | join {request : Request} {e : TaskEnd} :
      g.stage.tasks[g.stage.results.length]? = some (.ended e) →
      S.queries[g.stage.results.length]? = some request →
      g.stage.tasks.length = S.queries.length →
      Step S g { g with stage := { g.stage with
        results := g.stage.results ++ [e.result g.stage.results.length request] } }

/-- The states that a session in parallel mode may come to. At its start all permits are free. -/
inductive Reaches (S : Setting) : Gated → Prop
  | start : Reaches S { semaphore := { free := S.options.permits } }
  | step {g g' : Gated} : S.Opens → Reaches S g → Step S g g' → Reaches S g'

end Gated

variable {S : Setting} {s s' : Stage} {g g' : Gated}

/-! ## Which steps of a task matter to the semaphore -/

theorem Task.Step.isInside {now index : Nat} {request : Request} {task task' : Task}
    {sent : List Exchange} (h : Task.Step S now index request task sent task') :
    task.isInside = true := by
  cases h <;> rfl

theorem Task.Step.isInside_of_not_ended {now index : Nat} {request : Request} {task task' : Task}
    {sent : List Exchange} (h : Task.Step S now index request task sent task')
    (hne : ∀ e, task' ≠ .ended e) : task'.isInside = true := by
  cases h
  case begin => rfl
  case send => rfl
  case hear => rfl
  all_goals exact absurd rfl (hne _)

theorem countP_set_add {tasks : List Task} {index : Nat} {task : Task} (task' : Task)
    (p : Task → Bool) (ht : tasks[index]? = some task) :
    (tasks.set index task').countP p + (p task).toNat = tasks.countP p + (p task').toNat := by
  obtain ⟨hlt, rfl⟩ := List.getElem?_eq_some_iff.mp ht
  have hpos : p tasks[index] = true → 0 < tasks.countP p :=
    fun hp => List.countP_pos_iff.mpr ⟨_, List.getElem_mem hlt, hp⟩
  rw [List.countP_set hlt]
  cases hp : p tasks[index] with
  | false => cases p task' <;> simp
  | true =>
    have hone := hpos hp
    cases p task' <;> simp <;> omega

theorem any_getElem?_set {tasks : List Task} {index i : Nat} {task : Task} (task' : Task)
    (p : Task → Bool) (ht : tasks[index]? = some task) :
    (tasks.set index task')[i]?.any p = if index = i then p task' else tasks[i]?.any p := by
  have hlt : index < tasks.length := (List.getElem?_eq_some_iff.mp ht).1
  rw [List.getElem?_set, if_pos hlt]
  split
  · rfl
  · rfl

/-! ## Every permit is accounted for -/

namespace Gated

/-- What is true of every state, whatever the order of the steps. -/
structure Kept (S : Setting) (g : Gated) : Prop where
  /-- The tasks past the semaphore are those that hold a permit. -/
  held : ∀ index, index ∈ g.semaphore.holders ↔ g.stage.tasks[index]?.any Task.isInside = true
  /-- No task holds two. -/
  once : g.semaphore.holders.Nodup
  count : g.stage.tasks.countP Task.isInside = g.semaphore.holders.length
  /-- A permit is held or free. -/
  total : g.semaphore.holders.length + g.semaphore.free = S.options.permits

theorem Kept.start : Kept S { semaphore := { free := S.options.permits } } where
  held := by simp
  once := List.nodup_nil
  count := rfl
  total := Nat.zero_add _

theorem Kept.spawn (h : g.Kept S) :
    Kept S { g with stage := { g.stage with tasks := g.stage.tasks ++ [.queued] } } where
  held := by
    intro index
    rw [h.held]
    by_cases hlt : index < g.stage.tasks.length
    · rw [List.getElem?_append_left hlt]
    · rw [List.getElem?_eq_none (Nat.le_of_not_lt hlt),
        List.getElem?_append_right (Nat.le_of_not_lt hlt)]
      cases index - g.stage.tasks.length <;> simp [Task.isInside]
  once := h.once
  count := by
    rw [← h.count, List.countP_append]
    rfl
  total := h.total

theorem Kept.acquire (h : g.Kept S) {index : Nat} (ht : g.stage.tasks[index]? = some .queued)
    (hfree : 0 < g.semaphore.free) :
    Kept S {
      stage := { g.stage with tasks := g.stage.tasks.set index .admitted }
      semaphore := g.semaphore.acquire index } where
  held := by
    intro i
    rw [any_getElem?_set _ _ ht, Semaphore.acquire, List.mem_cons, h.held]
    by_cases hi : index = i
    · simp [hi, Task.isInside]
    · rw [if_neg hi, or_iff_right (Ne.symm hi)]
  once := by
    refine List.nodup_cons.mpr ⟨?_, h.once⟩
    intro hmem
    rw [h.held, ht] at hmem
    cases hmem
  count := by
    have hadd := countP_set_add .admitted Task.isInside ht
    have hcount := h.count
    simp only [Task.isInside, Bool.toNat_false, Bool.toNat_true, Semaphore.acquire,
      List.length_cons] at *
    omega
  total := by
    have htotal := h.total
    simp only [Semaphore.acquire, List.length_cons]
    omega

theorem Kept.work (h : g.Kept S) {index : Nat} {task task' : Task} {log : List (Nat × Exchange)}
    (ht : g.stage.tasks[index]? = some task) (hi : task.isInside = true)
    (hi' : task'.isInside = true) :
    Kept S { g with stage := { g.stage with tasks := g.stage.tasks.set index task', log } } where
  held := by
    intro i
    rw [any_getElem?_set _ _ ht, h.held]
    split
    · rename_i he
      subst he
      simp [ht, hi, hi']
    · rfl
  once := h.once
  count := by
    have hadd := countP_set_add task' Task.isInside ht
    rw [hi, hi'] at hadd
    rw [← h.count]
    exact Nat.add_right_cancel hadd
  total := h.total

theorem Kept.finish (h : g.Kept S) {index : Nat} {task : Task} {e : TaskEnd}
    {log : List (Nat × Exchange)} (ht : g.stage.tasks[index]? = some task)
    (hi : task.isInside = true) :
    Kept S {
      stage := { g.stage with tasks := g.stage.tasks.set index (.ended e), log }
      semaphore := g.semaphore.release index } := by
  have hmem : index ∈ g.semaphore.holders := by
    rw [h.held, ht]
    exact hi
  have hlen := List.length_erase_of_mem hmem
  have hpos := List.length_pos_of_mem hmem
  unfold Semaphore.release
  rw [if_pos hmem]
  refine ⟨?_, h.once.erase index, ?_, ?_⟩
  · intro i
    rw [any_getElem?_set _ _ ht, h.once.mem_erase_iff, h.held]
    by_cases he : index = i
    · simp [he, Task.isInside]
    · rw [if_neg he, and_iff_right (Ne.symm he)]
  · have hadd := countP_set_add (.ended e) Task.isInside ht
    have hcount := h.count
    rw [hi] at hadd
    simp only [Task.isInside, Bool.toNat_false, Bool.toNat_true] at *
    omega
  · have htotal := h.total
    simp only
    omega

theorem Kept.step (h : g.Kept S) (hs : Step S g g') : g'.Kept S := by
  cases hs with
  | spawn _ => exact h.spawn
  | acquire ht hfree => exact h.acquire ht hfree
  | work ht _ hstep hne => exact h.work ht hstep.isInside (hstep.isInside_of_not_ended hne)
  | finish ht _ hstep => exact h.finish ht hstep.isInside
  | pass _ _ _ => exact ⟨h.held, h.once, h.count, h.total⟩
  | join _ _ _ => exact ⟨h.held, h.once, h.count, h.total⟩

theorem Reaches.kept (h : Reaches S g) : g.Kept S := by
  induction h with
  | start => exact .start
  | step _ _ hs ih => exact ih.step hs

/-! ## The semaphore lets in whom the count of the tasks lets in -/

/-- A step with the semaphore is a step of the session. -/
theorem Kept.stage_step (h : g.Kept S) (hm : S.options.mode = .parallel) (hs : Step S g g') :
    Stage.Step S g.stage g'.stage := by
  cases hs with
  | spawn hlt =>
    have hfresh : S.fresh = .queued := by simp [Setting.fresh, hm]
    rw [← hfresh]
    refine .spawn hlt fun hseq => ?_
    rw [hm] at hseq
    cases hseq
  | acquire ht hfree =>
    refine .enter ht ?_
    have hcount := h.count
    have htotal := h.total
    omega
  | work ht hq hstep _ => exact .work ht hq hstep
  | finish ht hq hstep => exact .work ht hq hstep
  | pass hlt hw hi => exact .pass hlt hw hi
  | join he hq hall => exact .join he hq fun _ => hall

/-- A step of the session can be done with the semaphore. -/
theorem Kept.exists_step (h : g.Kept S) (hm : S.options.mode = .parallel)
    (hs : Stage.Step S g.stage s') : ∃ g', Step S g g' ∧ g'.stage = s' := by
  cases hs with
  | spawn hlt _ =>
    have hfresh : S.fresh = .queued := by simp [Setting.fresh, hm]
    rw [hfresh]
    exact ⟨_, .spawn hlt, rfl⟩
  | enter ht hlt =>
    refine ⟨_, .acquire ht ?_, rfl⟩
    have hcount := h.count
    have htotal := h.total
    omega
  | @work index request task task' sent ht hq hstep =>
    by_cases hend : ∃ e, task' = .ended e
    · obtain ⟨e, rfl⟩ := hend
      exact ⟨_, .finish ht hq hstep, rfl⟩
    · exact ⟨_, .work ht hq hstep fun e he => hend ⟨e, he⟩, rfl⟩
  | pass hlt hw hi => exact ⟨_, .pass hlt hw hi, rfl⟩
  | join he hq hall => exact ⟨_, .join he hq (hall hm), rfl⟩

theorem Reaches.stage (h : Reaches S g) (hm : S.options.mode = .parallel) :
    Session.Reaches S g.stage := by
  induction h with
  | start => exact .start
  | step hopen hg hs ih => exact .step hopen ih (hg.kept.stage_step hm hs)

/-- The semaphore keeps a session from nothing: each of its stages can be reached with it. -/
theorem exists_reaches (h : Session.Reaches S s) (hm : S.options.mode = .parallel) :
    ∃ g, Reaches S g ∧ g.stage = s := by
  induction h with
  | start => exact ⟨_, .start, rfl⟩
  | step hopen _ hs ih =>
    obtain ⟨g, hg, rfl⟩ := ih
    obtain ⟨g', hstep, rfl⟩ := hg.kept.exists_step hm hs
    exact ⟨g', .step hopen hg hstep, rfl⟩

/-! ## The law of the permits -/

/-- The permits of a session are in order. -/
structure Disciplined (S : Setting) (g : Gated) : Prop where
  /-- No more tasks are past the semaphore than may run at once. -/
  bounded : g.stage.tasks.countP Task.isInside ≤ max 1 S.options.maxParallelism
  /-- Each of them holds one permit, and no other task holds any. -/
  held : ∀ index, g.semaphore.holders.count index
    = (g.stage.tasks[index]?.any Task.isInside).toNat
  /-- No permit is lost, and none is made. -/
  conserved : g.semaphore.holders.length + g.semaphore.free = max 1 S.options.maxParallelism
  /-- A task waits only while a permit is free or another task runs. -/
  awake : .queued ∈ g.stage.tasks →
    0 < g.semaphore.free ∨ ∃ task ∈ g.stage.tasks, task.isInside = true

/-- All tasks are over, each with its result, and all permits are free. -/
structure Done (S : Setting) (g : Gated) : Prop where
  ended : ∀ index < S.requests.length, ∃ e, g.stage.tasks[index]? = some (.ended e)
  results : g.stage.results.length = S.requests.length
  free : g.semaphore.free = max 1 S.options.maxParallelism

theorem Kept.disciplined (h : g.Kept S) : g.Disciplined S := by
  have hpermits : S.options.permits = max 1 S.options.maxParallelism := Nat.max_comm _ _
  have hcount := h.count
  have htotal := h.total
  refine ⟨by omega, ?_, by omega, ?_⟩
  · intro index
    rw [h.once.count]
    cases hi : g.stage.tasks[index]?.any Task.isInside with
    | true =>
      rw [if_pos ((h.held index).mpr hi)]
      rfl
    | false =>
      have hnot : index ∉ g.semaphore.holders := by
        rw [h.held, hi]
        exact Bool.false_ne_true
      rw [if_neg hnot]
      rfl
  · intro _
    by_cases hfree : 0 < g.semaphore.free
    · exact .inl hfree
    · -- All permits are held, and there is at least one.
      have hsome : 0 < g.stage.tasks.countP Task.isInside := by
        have hone : 1 ≤ max 1 S.options.maxParallelism := Nat.le_max_left _ _
        omega
      exact .inr (List.countP_pos_iff.mp hsome)

theorem Reaches.done (h : Reaches S g) (hm : S.options.mode = .parallel)
    (hd : ∀ call, ∃ reply, S.database call reply) (hover : ∀ g', ¬ Step S g g') : g.Done S := by
  have hs := h.stage hm
  have hres : g.stage.results.length = S.queries.length := by
    refine hs.length_of_over hd fun s' hstep => ?_
    obtain ⟨g', hg', _⟩ := h.kept.exists_step hm hstep
    exact hover g' hg'
  have hlen : S.queries.length = S.requests.length := by simp [Setting.queries, labelled]
  have hended : ∀ index < S.requests.length, ∃ e, g.stage.tasks[index]? = some (.ended e) := by
    intro index hlt
    obtain ⟨_, e, _, he, _⟩ := hs.ordered.taken index (by omega)
    exact ⟨e, he⟩
  refine ⟨hended, by omega, ?_⟩
  have hnone : g.semaphore.holders = [] := by
    refine List.eq_nil_iff_forall_not_mem.mpr fun index hmem => ?_
    have hin := (h.kept.held index).mp hmem
    by_cases hlt : index < S.requests.length
    · obtain ⟨e, he⟩ := hended index hlt
      rw [he] at hin
      cases hin
    · have hspawned := hs.ordered.spawned
      rw [List.getElem?_eq_none (by omega)] at hin
      cases hin
  have hconserved := h.kept.disciplined.conserved
  rw [hnone, List.length_nil] at hconserved
  omega

/-- No session in parallel mode goes on for ever. -/
theorem no_endless_run (hm : S.options.mode = .parallel) (hopen : S.Opens) :
    ¬ ∃ f : Nat → Gated, f 0 = { semaphore := { free := S.options.permits } } ∧
      ∀ n, Step S (f n) (f (n + 1)) := by
  rintro ⟨f, hstart, hstep⟩
  have hreach : ∀ n, Reaches S (f n) := by
    intro n
    induction n with
    | zero =>
      rw [hstart]
      exact .start
    | succ n ih => exact .step hopen ih (hstep n)
  refine Setting.no_endless_session hopen ⟨fun n => (f n).stage, congrArg Gated.stage hstart, ?_⟩
  exact fun n => (hreach n).kept.stage_step hm (hstep n)

/-- In parallel mode, whichever task goes on when and however each comes to its end, the permits
are in order in every state. A session does not go on for ever, and when nothing is left to be done
each request has its result and all permits are free, so that no query waits for ever. -/
theorem no_query_starves_for_a_permit (hm : S.options.mode = .parallel)
    (hd : ∀ call, ∃ reply, S.database call reply) :
    (∀ g, Reaches S g → g.Disciplined S) ∧
    (S.Opens → ¬ ∃ f : Nat → Gated, f 0 = { semaphore := { free := S.options.permits } } ∧
      ∀ n, Step S (f n) (f (n + 1))) ∧
    ∀ g, Reaches S g → (∀ g', ¬ Step S g g') → g.Done S := by
  refine ⟨?_, no_endless_run hm, ?_⟩
  · intro g h
    exact h.kept.disciplined
  · intro g h hover
    exact h.done hm hd hover

/-- Two queries and one permit. The first query panics, and the second one goes on with the
permit. -/
theorem the_permit_of_a_panic_is_taken_again :
    ∃ S g, Reaches S g ∧ S.options.maxParallelism = 0 ∧ g.Disciplined S ∧
      g.stage.tasks = [.ended (.panicked none), .admitted] ∧ g.semaphore = ⟨0, [1]⟩ := by
  let first : Request := { id := "a", label := "", sql := "SELECT * FROM t" }
  let second : Request := { id := "b", label := "", sql := "SELECT * FROM u" }
  let S : Setting :=
    { options := { mode := .parallel, maxParallelism := 0 }
      database := .of fun _ => ⟨0, .panic none⟩, includeActual := false
      requests := [first, second] }
  let query := first.withDefaultLabel 0
  have ha : isBlankText "a" = false := by decide +kernel
  have hb : isBlankText "b" = false := by decide +kernel
  have hopen : S.Opens :=
    ⟨by simp [S, first, second, validate, checkIds, ha, hb], by decide⟩
  have hsafe : Statement.classify S.options.policy first.sql = .safe := by decide +kernel
  have htables : Statement.tableNames first.sql = ["t"] := by decide +kernel
  have hquery : S.queries[0]? = some query := getElem?_labelled rfl
  have hadmit : admit? S.options.policy query.sql = .ok ["t"] := by
    unfold admit?
    rw [sql_withDefaultLabel first 0, hsafe, htables]
  have hspawned : Reaches S { stage := { tasks := [.queued, .queued] }, semaphore := ⟨1, []⟩ } :=
    .step hopen (.step hopen .start (.spawn (by decide))) (.spawn (by decide))
  have hadmitted := Reaches.step hopen hspawned
    (.acquire (show [Task.queued, .queued][0]? = some .queued from rfl) Nat.zero_lt_one)
  have hbegun := Reaches.step hopen hadmitted
    (.work rfl hquery (.begin hadmit) fun e he => by cases he)
  have hsent := Reaches.step hopen hbegun (.work rfl hquery (.send rfl) fun e he => by cases he)
  have hpanicked := Reaches.step hopen hsent (.finish rfl hquery (.panic rfl rfl rfl))
  have hagain := Reaches.step hopen hpanicked (.acquire
    (show [Task.ended (.panicked none), .queued][1]? = some .queued from rfl) Nat.zero_lt_one)
  have hlaw := (no_query_starves_for_a_permit (S := S) rfl fun _ => ⟨_, rfl⟩).1 _ hagain
  exact ⟨S, _, hagain, rfl, hlaw, rfl, rfl⟩

end Gated

end QueryReview.Session
