-- The laws of dialogues: which calls a dialogue makes, how far the answers so far have brought
-- it, and how it ends. Nothing here says where the replies come from. Against a collaborator whose
-- replies hang on the calls alone, the end is the one that `Dialogue.run` gives.
import QueryReview.Session.Analysis

namespace QueryReview.Session

/-- A call, and the reply that the database has for it. -/
structure Exchange where
  call : Call
  reply : Reply call.Answer

/-- The milliseconds that the calls take, one after the other. -/
def spent : List Exchange → Nat
  | [] => 0
  | e :: es => e.reply.delay + spent es

def InTime (limit? : Option Nat) (t : Nat) : Prop := exceeded? limit? t = none

/-- The call brings the dialogue to its end: it has no answer, or none within the limit. The other
exchanges stand before it. -/
def Breaks (limit? : Option Nat) (front : List Exchange) (e : Exchange) : Prop :=
  (∀ a, e.reply.outcome ≠ .answer a) ∨ ¬ InTime limit? (spent front + e.reply.delay)

@[simp]
theorem spent_nil : spent [] = 0 := rfl

@[simp]
theorem spent_concat (es : List Exchange) (e : Exchange) :
    spent (es ++ [e]) = spent es + e.reply.delay := by
  induction es with
  | nil => simp [spent]
  | cons x es ih =>
    simp only [List.cons_append, spent, ih]
    omega

theorem inTime_zero (limit? : Option Nat) : InTime limit? 0 := by
  cases limit? with
  | none => rfl
  | some limit => simp [InTime, exceeded?]

theorem exceeded?_of_lt {limit? : Option Nat} {limit t : Nat} (hl : limit? = some limit)
    (ht : limit < t) : exceeded? limit? t = some limit := by
  simp [exceeded?, hl, ht]

theorem InTime.of_le {limit? : Option Nat} {s t : Nat} (h : InTime limit? t) (hle : s ≤ t) :
    InTime limit? s := by
  cases limit? with
  | none => rfl
  | some limit =>
    simp only [InTime, exceeded?, Option.filter_some_eq_none, decide_eq_true_eq, Nat.not_lt] at *
    omega

namespace Dialogue

variable {α β : Type}

/-- The answers of the exchanges have brought the dialogue to what is left of it. -/
inductive Heard (d : Dialogue α) : List Exchange → Dialogue α → Prop
  | nothing : Heard d [] d
  | answer {es : List Exchange} {call : Call} {next : call.Answer → Dialogue α}
      {reply : Reply call.Answer} {a : call.Answer} :
      Heard d es (.ask call next) → reply.outcome = .answer a →
      Heard d (es ++ [⟨call, reply⟩]) (next a)

/-- The calls of the exchanges have been made, and all answers but the last were heard within the
limit. -/
inductive Sent (limit? : Option Nat) (d : Dialogue α) : List Exchange → Prop
  | heard {es : List Exchange} {rest : Dialogue α} :
      Heard d es rest → InTime limit? (spent es) → Sent limit? d es
  | out {es : List Exchange} {call : Call} {next : call.Answer → Dialogue α}
      {reply : Reply call.Answer} :
      Heard d es (.ask call next) → InTime limit? (spent es) →
      Sent limit? d (es ++ [⟨call, reply⟩])

/-- The dialogue, held to a limit, ends with the exchanges, after the given time. -/
inductive Ends (limit? : Option Nat) (d : Dialogue α) : List Exchange → Nat → Ending α → Prop
  | finished {es : List Exchange} {a : α} :
      Heard d es (.done a) → InTime limit? (spent es) →
      Ends limit? d es (spent es) (.finished a)
  | failed {es : List Exchange} {call : Call} {next : call.Answer → Dialogue α}
      {reply : Reply call.Answer} {f : Failure} :
      Heard d es (.ask call next) → InTime limit? (spent es + reply.delay) →
      reply.outcome = .failure f →
      Ends limit? d (es ++ [⟨call, reply⟩]) (spent es + reply.delay) (.failed f)
  | panicked {es : List Exchange} {call : Call} {next : call.Answer → Dialogue α}
      {reply : Reply call.Answer} {words : Option String} :
      Heard d es (.ask call next) → InTime limit? (spent es + reply.delay) →
      reply.outcome = .panic words →
      Ends limit? d (es ++ [⟨call, reply⟩]) (spent es + reply.delay) (.panicked words)
  | timedOut {es : List Exchange} {call : Call} {next : call.Answer → Dialogue α}
      {reply : Reply call.Answer} {limit : Nat} :
      Heard d es (.ask call next) → InTime limit? (spent es) →
      exceeded? limit? (spent es + reply.delay) = some limit →
      Ends limit? d (es ++ [⟨call, reply⟩]) limit (.timedOut limit)

/-! ## Where a dialogue stops -/

/-- Up to a place where something is left to be done, no call has broken the dialogue. -/
theorem Heard.not_breaks {limit? : Option Nat} {d rest : Dialogue α} {es : List Exchange}
    (h : Heard d es rest) (ht : InTime limit? (spent es)) {front back : List Exchange}
    {e : Exchange} (he : es = front ++ e :: back) : ¬ Breaks limit? front e := by
  induction h generalizing back with
  | nothing => simp at he
  | @answer es call next reply a _ ha ih =>
    rw [spent_concat] at ht
    rcases List.eq_nil_or_concat back with rfl | ⟨init, last, rfl⟩
    · obtain ⟨rfl, hl⟩ := List.append_inj' he rfl
      cases hl
      rintro (hno | hlate)
      · exact hno a ha
      · exact hlate ht
    · rw [List.concat_eq_append, ← List.cons_append, ← List.append_assoc] at he
      exact ih (ht.of_le (Nat.le_add_right _ _)) (List.append_inj' he rfl).1

theorem Ends.sent {limit? : Option Nat} {d : Dialogue α} {es : List Exchange} {t : Nat}
    {ending : Ending α} (h : Ends limit? d es t ending) : Sent limit? d es := by
  cases h with
  | finished hh ht => exact .heard hh ht
  | failed hh ht _ => exact .out hh (ht.of_le (Nat.le_add_right _ _))
  | panicked hh ht _ => exact .out hh (ht.of_le (Nat.le_add_right _ _))
  | timedOut hh ht _ => exact .out hh ht

theorem Sent.stops {limit? : Option Nat} {d : Dialogue α} {es : List Exchange}
    (h : Sent limit? d es) {front back : List Exchange} {e : Exchange}
    (he : es = front ++ e :: back) (hb : Breaks limit? front e) : back = [] := by
  cases h with
  | heard hh ht => exact absurd hb (hh.not_breaks ht he)
  | out hh ht =>
    rcases List.eq_nil_or_concat back with rfl | ⟨more, last, rfl⟩
    · rfl
    · rw [List.concat_eq_append, ← List.cons_append, ← List.append_assoc] at he
      exact absurd hb (hh.not_breaks ht (List.append_inj' he rfl).1)

/-- A dialogue that did not finish was broken by its last call. -/
theorem Ends.broken {limit? : Option Nat} {d : Dialogue α} {es : List Exchange} {t : Nat}
    {ending : Ending α} (h : Ends limit? d es t ending) (hf : ∀ a, ending ≠ .finished a) :
    ∃ front e, es = front ++ [e] ∧ Breaks limit? front e := by
  cases h with
  | finished _ _ => exact absurd rfl (hf _)
  | @failed es _ _ _ _ _ _ ho => exact ⟨es, _, rfl, Or.inl (by simp [ho])⟩
  | @panicked es _ _ _ _ _ _ ho => exact ⟨es, _, rfl, Or.inl (by simp [ho])⟩
  | @timedOut es _ _ _ _ _ _ ho => exact ⟨es, _, rfl, Or.inr (by simp [InTime, ho])⟩

/-! ## Which calls a dialogue makes -/

/-- Whatever the answers are, the dialogue makes these calls, one after the other. -/
inductive Asks : Dialogue α → List Call → Prop
  | done {a : α} : Asks (.done a) []
  | ask {call : Call} {next : call.Answer → Dialogue α} {calls : List Call} :
      (∀ a, Asks (next a) calls) → Asks (.ask call next) (call :: calls)

theorem Asks.bind {d : Dialogue α} {f : α → Dialogue β} {calls more : List Call}
    (h : Asks d calls) (hf : ∀ a, Asks (f a) more) : Asks (d.bind f) (calls ++ more) := by
  induction h with
  | done => exact hf _
  | ask _ ih => exact .ask ih

theorem Asks.bind_done {d : Dialogue α} {g : α → β} {calls : List Call} (h : Asks d calls) :
    Asks (d.bind fun a => .done (g a)) calls := by
  have hbind : Asks (d.bind fun a => .done (g a)) (calls ++ []) := h.bind fun _ => .done
  rwa [List.append_nil] at hbind

/-- What has been asked, and what is left to ask, are the calls of the dialogue. -/
theorem Asks.of_heard {d rest : Dialogue α} {calls : List Call} {es : List Exchange}
    (ha : Asks d calls) (h : Heard d es rest) :
    ∃ left, calls = es.map (·.call) ++ left ∧ Asks rest left := by
  induction h with
  | nothing => exact ⟨calls, rfl, ha⟩
  | answer _ _ ih =>
    obtain ⟨left, rfl, hleft⟩ := ih
    cases hleft with
    | ask hnext => exact ⟨_, by simp, hnext _⟩

theorem Asks.of_sent {limit? : Option Nat} {d : Dialogue α} {calls : List Call}
    {es : List Exchange} (ha : Asks d calls) (h : Sent limit? d es) :
    es.map (·.call) <+: calls := by
  cases h with
  | heard hh _ =>
    obtain ⟨left, rfl, _⟩ := ha.of_heard hh
    exact ⟨left, rfl⟩
  | out hh _ =>
    obtain ⟨left, rfl, hleft⟩ := ha.of_heard hh
    cases hleft with
    | @ask _ _ calls _ => exact ⟨calls, by simp⟩

theorem Asks.of_finished {limit? : Option Nat} {d : Dialogue α} {calls : List Call}
    {es : List Exchange} {t : Nat} {a : α} (ha : Asks d calls)
    (h : Ends limit? d es t (.finished a)) : es.map (·.call) = calls := by
  cases h with
  | finished hh _ =>
    obtain ⟨left, rfl, hleft⟩ := ha.of_heard hh
    cases hleft
    simp

/-! ## Against a collaborator -/

theorem run_of_heard {collaborator : Collaborator} {limit? : Option Nat} {d rest : Dialogue α}
    {es : List Exchange} (h : Heard d es rest) (ht : InTime limit? (spent es))
    (hc : ∀ e ∈ es, e.reply = collaborator e.call) :
    d.run collaborator limit? 0 =
      { rest.run collaborator limit? (spent es) with
        calls := es.map (·.call) ++ (rest.run collaborator limit? (spent es)).calls } := by
  induction h with
  | nothing => rfl
  | @answer es call next reply a _ ha ih =>
    obtain rfl : reply = collaborator call := hc ⟨call, reply⟩ (by simp)
    rw [spent_concat] at ht
    rw [ih (ht.of_le (Nat.le_add_right _ _)) fun e he => hc e (List.mem_append_left _ he)]
    have hnone : exceeded? limit? (spent es + (collaborator call).delay) = none := ht
    simp [Dialogue.run, hnone, ha]

/-- The dialogue against a collaborator is the one that the exchanges with it tell of. -/
theorem Ends.run_eq {collaborator : Collaborator} {limit? : Option Nat} {d : Dialogue α}
    {es : List Exchange} {t : Nat} {ending : Ending α} (h : Ends limit? d es t ending)
    (hc : ∀ e ∈ es, e.reply = collaborator e.call) :
    d.run collaborator limit? 0 = { calls := es.map (·.call), elapsed := t, ending } := by
  cases h with
  | finished hh ht =>
    rw [run_of_heard hh ht hc]
    simp [Dialogue.run]
  | @failed es call next reply f hh ht ho =>
    obtain rfl : reply = collaborator call := hc ⟨call, reply⟩ (by simp)
    have hnone : exceeded? limit? (spent es + (collaborator call).delay) = none := ht
    rw [run_of_heard hh (ht.of_le (Nat.le_add_right _ _))
      fun e he => hc e (List.mem_append_left _ he)]
    simp [Dialogue.run, hnone, ho]
  | @panicked es call next reply words hh ht ho =>
    obtain rfl : reply = collaborator call := hc ⟨call, reply⟩ (by simp)
    have hnone : exceeded? limit? (spent es + (collaborator call).delay) = none := ht
    rw [run_of_heard hh (ht.of_le (Nat.le_add_right _ _))
      fun e he => hc e (List.mem_append_left _ he)]
    simp [Dialogue.run, hnone, ho]
  | @timedOut es call next reply limit hh ht ho =>
    obtain rfl : reply = collaborator call := hc ⟨call, reply⟩ (by simp)
    rw [run_of_heard hh ht fun e he => hc e (List.mem_append_left _ he)]
    simp [Dialogue.run, ho]

end Dialogue

/-! ## The calls of an analysis -/

open Dialogue

/-- The calls that bring in the records of the tables. -/
def schemaCalls (tables : List String) : List Call :=
  tables.flatMap fun table => [.columns table, .indexes table]

/-- All calls that may be made for a statement, in their order. -/
def script (sql : String) (tables : List String) (includeActual : Bool) : List Call :=
  .plan .estimated sql :: ((if includeActual then [.plan .actual sql] else []) ++
    schemaCalls tables)

theorem asks_askSchema (table : String) :
    Asks (askSchema table) [.columns table, .indexes table] :=
  .ask fun _ => .ask fun _ => .done

theorem asks_askSchemas (tables : List String) : Asks (askSchemas tables) (schemaCalls tables) := by
  induction tables with
  | nil => exact .done
  | cons table rest ih =>
    refine Asks.bind (asks_askSchema table) fun schema => ?_
    exact ih.bind_done

theorem asks_askActual (sql : String) (includeActual : Bool) :
    Asks (askActual sql includeActual) (if includeActual then [.plan .actual sql] else []) := by
  cases includeActual with
  | false => exact .done
  | true => exact .ask fun _ => .done

theorem asks_askAll (sql : String) (tables : List String) (includeActual : Bool) :
    Asks (askAll sql tables includeActual) (script sql tables includeActual) := by
  have hplan : Asks (ask (.plan .estimated sql)) [.plan .estimated sql] := .ask fun _ => .done
  refine hplan.bind fun text => Asks.bind (asks_askActual sql includeActual) fun actual => ?_
  exact (asks_askSchemas tables).bind_done

end QueryReview.Session
