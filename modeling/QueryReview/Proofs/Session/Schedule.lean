-- A session as it goes on in time. Each query has a task of its own. In parallel mode all tasks
-- are started at once and wait for a permit, and in sequential mode each is started when the one
-- before it has been taken down. Which task goes on next is open, and so is when it does, but a
-- reply is heard when it is there, and a limit cuts a call off when it is reached.
import QueryReview.Proofs.Session.Dialogue
import QueryReview.Session.Run

namespace QueryReview.Session

/-! ## Tasks -/

/-- The replies that a database may give to a call. -/
abbrev Database := (call : Call) → Reply call.Answer → Prop

/-- The database that gives one reply to a call, whenever it is made. -/
def Database.of (collaborator : Collaborator) : Database :=
  fun call reply => reply = collaborator call

/-- All that a session is run with. -/
structure Setting where
  options : Options
  database : Database
  includeActual : Bool
  /-- The requests as they were submitted. -/
  requests : List Request

/-- The queries of the session. -/
def Setting.queries (S : Setting) : List Request := labelled S.requests

/-- How the task of a query ends. -/
inductive TaskEnd
  | returned (result : QueryResult)
  | panicked (words : Option String)

/-- What the session takes down for a task that has ended. -/
def TaskEnd.result (index : Nat) (request : Request) : TaskEnd → QueryResult
  | returned result => result
  | panicked words => .failed index request [] (.taskFailed (panicText words))

/-- How far the task of one query has come. -/
inductive Task
  /-- It waits for a permit. -/
  | queued
  /-- It may start. -/
  | admitted
  /-- It has fetched since the given time, and no call of it is out. -/
  | thinking (tables : List String) (began : Nat) (rest : Dialogue Fetched)
  /-- A call of it is out since the second of the times. -/
  | waiting (tables : List String) (began sent : Nat) (call : Call) (reply : Reply call.Answer)
      (next : call.Answer → Dialogue Fetched)
  | ended (e : TaskEnd)

namespace Task

/-- It holds a permit, if there are any. -/
def isInside : Task → Bool
  | admitted | thinking .. | waiting .. => true
  | _ => false

def isWaiting : Task → Bool
  | waiting .. => true
  | _ => false

/-- Nothing wakes the task before the given time. -/
def IdlesUntil (limit? : Option Nat) (later : Nat) : Task → Prop
  | thinking .. => False
  | waiting _ began sent _ reply _ =>
    later ≤ sent + reply.delay ∧ ∀ limit ∈ limit?, later ≤ began + limit
  | _ => True

/-- The task of a query does one step at the given time, and sends the calls in the list. -/
inductive Step (S : Setting) (now index : Nat) (request : Request) :
    Task → List Exchange → Task → Prop
  | refuse {e : QueryError} :
      admit? S.options.policy request.sql = .error e →
      Step S now index request admitted [] (ended (.returned (.failed index request [] e)))
  | begin {tables : List String} :
      admit? S.options.policy request.sql = .ok tables →
      Step S now index request admitted []
        (thinking tables now (askAll request.sql tables S.includeActual))
  | send {tables : List String} {began : Nat} {call : Call}
      {next : call.Answer → Dialogue Fetched} {reply : Reply call.Answer} :
      S.database call reply →
      Step S now index request (thinking tables began (.ask call next)) [⟨call, reply⟩]
        (waiting tables began now call reply next)
  | hear {tables : List String} {began sent : Nat} {call : Call}
      {next : call.Answer → Dialogue Fetched} {reply : Reply call.Answer} {a : call.Answer} :
      now = sent + reply.delay → InTime S.options.timeLimit? (now - began) →
      reply.outcome = .answer a →
      Step S now index request (waiting tables began sent call reply next) []
        (thinking tables began (next a))
  | fail {tables : List String} {began sent : Nat} {call : Call}
      {next : call.Answer → Dialogue Fetched} {reply : Reply call.Answer} {f : Failure} :
      now = sent + reply.delay → InTime S.options.timeLimit? (now - began) →
      reply.outcome = .failure f →
      Step S now index request (waiting tables began sent call reply next) []
        (ended (.returned (.failed index request tables (.fetchFailure f.message))))
  | panic {tables : List String} {began sent : Nat} {call : Call}
      {next : call.Answer → Dialogue Fetched} {reply : Reply call.Answer}
      {words : Option String} :
      now = sent + reply.delay → InTime S.options.timeLimit? (now - began) →
      reply.outcome = .panic words →
      Step S now index request (waiting tables began sent call reply next) []
        (ended (.panicked words))
  | expire {tables : List String} {began sent : Nat} {call : Call}
      {next : call.Answer → Dialogue Fetched} {reply : Reply call.Answer} {limit : Nat} :
      S.options.timeLimit? = some limit → now = began + limit → now < sent + reply.delay →
      Step S now index request (waiting tables began sent call reply next) []
        (ended (.returned (.failed index request tables (.timeout (.ofMillis limit)))))
  | conclude {tables : List String} {began : Nat} {fetched : Fetched} :
      Step S now index request (thinking tables began (.done fetched)) []
        (ended (.returned
          (.success index request tables fetched (.ofMillis (now - began)))))

end Task

/-! ## The stages of a session -/

/-- The state of a session. -/
structure Stage where
  /-- The milliseconds since the session began. -/
  clock : Nat := 0
  /-- The tasks that have been started, in the order of the requests. -/
  tasks : List Task := []
  /-- What has been taken down so far. -/
  results : List QueryResult := []
  /-- The calls that have been sent, the earliest first, each with the place of its query. -/
  log : List (Nat × Exchange) := []

/-- What has been sent for the query at the given place. -/
def Stage.exchangesOf (s : Stage) (index : Nat) : List Exchange :=
  (s.log.filter (·.1 == index)).map (·.2)

/-- A task that has just been started. -/
def Setting.fresh (S : Setting) : Task :=
  match S.options.mode with
  | .sequential => .admitted
  | .parallel => .queued

/-- One step of a session. Time goes by only while a call is out, and not beyond the moment at
which a task wakes up. -/
inductive Stage.Step (S : Setting) (s : Stage) : Stage → Prop
  | spawn :
      s.tasks.length < S.queries.length →
      (S.options.mode = .sequential → s.results.length = s.tasks.length) →
      Step S s { s with tasks := s.tasks ++ [S.fresh] }
  | enter {index : Nat} :
      s.tasks[index]? = some .queued → s.tasks.countP Task.isInside < S.options.permits →
      Step S s { s with tasks := s.tasks.set index .admitted }
  | work {index : Nat} {request : Request} {task task' : Task} {sent : List Exchange} :
      s.tasks[index]? = some task → S.queries[index]? = some request →
      Task.Step S s.clock index request task sent task' →
      Step S s { s with
        tasks := s.tasks.set index task'
        log := s.log ++ sent.map (index, ·) }
  | pass {later : Nat} :
      s.clock < later → (∃ task ∈ s.tasks, task.isWaiting = true) →
      (∀ task ∈ s.tasks, task.IdlesUntil S.options.timeLimit? later) →
      Step S s { s with clock := later }
  | join {request : Request} {e : TaskEnd} :
      s.tasks[s.results.length]? = some (.ended e) →
      S.queries[s.results.length]? = some request →
      (S.options.mode = .parallel → s.tasks.length = S.queries.length) →
      Step S s { s with results := s.results ++ [e.result s.results.length request] }

/-- The list of requests is accepted, and there are not too many permits. -/
def Setting.Opens (S : Setting) : Prop :=
  validate S.options.maxQueries S.requests = .ok () ∧ permitsFit S.options = true

/-- The stages that a session may come to. -/
inductive Reaches (S : Setting) : Stage → Prop
  | start : Reaches S {}
  | step {s s' : Stage} : S.Opens → Reaches S s → Stage.Step S s s' → Reaches S s'

/-! ## The log, query by query -/

namespace Stage

variable {S : Setting}

theorem exchangesOf_work (s : Stage) (tasks : List Task) (index i : Nat) (sent : List Exchange) :
    Stage.exchangesOf { s with tasks, log := s.log ++ sent.map (index, ·) } i
      = s.exchangesOf i ++ if index = i then sent else [] := by
  unfold exchangesOf
  rw [List.filter_append, List.map_append]
  congr 1
  by_cases h : index = i
  · have hall : (sent.map (index, ·)).filter (·.1 == i) = sent.map (index, ·) := by
      rw [List.filter_eq_self]
      simp [h]
    rw [hall, if_pos h]
    simp [Function.comp_def]
  · have hnone : (sent.map (index, ·)).filter (·.1 == i) = [] := by
      rw [List.filter_eq_nil_iff]
      simp [h]
    rw [hnone, if_neg h]
    rfl

theorem exchangesOf_eq_nil {s : Stage} {index : Nat} (h : ∀ p ∈ s.log, p.1 < s.tasks.length)
    (hi : s.tasks.length ≤ index) : s.exchangesOf index = [] := by
  unfold exchangesOf
  rw [List.map_eq_nil_iff, List.filter_eq_nil_iff]
  intro p hp he
  have hlt := h p hp
  have heq : p.1 = index := by simpa using he
  omega

end Stage

end QueryReview.Session
