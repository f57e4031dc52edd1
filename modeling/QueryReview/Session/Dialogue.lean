-- What an analysis asks of the database, and how it goes on with the answers. The asking is kept
-- apart from the answering: a dialogue is fixed before any call is made, and may be run against
-- any collaborator.
import QueryReview.Catalog
import QueryReview.Failure
import QueryReview.Plan.Forest

namespace QueryReview.Session

/-- One question to the database. -/
inductive Call
  | plan (mode : Plan.Mode) (sql : String)
  | columns (table : String)
  | indexes (table : String)
deriving DecidableEq, Repr

/-- What the question is answered with. -/
def Call.Answer : Call → Type
  | .plan _ _ => String
  | .columns _ => List Catalog.Column
  | .indexes _ => List Catalog.IndexPart

/-- How one call ends. -/
inductive Outcome (α : Type)
  | answer (a : α)
  | failure (f : Failure)
  /-- The collaborator breaks down, with words or without. -/
  | panic (words : Option String)

/-- How one call ends, and how many milliseconds it takes. -/
structure Reply (α : Type) where
  delay : Nat
  outcome : Outcome α

/-- A database whose reply hangs on the call alone. -/
abbrev Collaborator := (call : Call) → Reply call.Answer

/-- Calls to make one after the other, and what comes of the answers. -/
inductive Dialogue (α : Type)
  | done (a : α)
  | ask (call : Call) (next : call.Answer → Dialogue α)

namespace Dialogue

variable {α β : Type}

def bind : Dialogue α → (α → Dialogue β) → Dialogue β
  | done a, f => f a
  | ask call next, f => ask call fun answer => (next answer).bind f

instance : Monad Dialogue where
  pure := done
  bind := bind

end Dialogue

/-- The dialogue of one call. -/
def ask (call : Call) : Dialogue call.Answer := .ask call .done

/-- How a dialogue ends. -/
inductive Ending (α : Type)
  | finished (a : α)
  | failed (f : Failure)
  | panicked (words : Option String)
  /-- The time was over, which is the given number of milliseconds. -/
  | timedOut (limit : Nat)

/-- A dialogue that has been run: the calls it made, the milliseconds they took, and its end. -/
structure Run (α : Type) where
  calls : List Call
  elapsed : Nat
  ending : Ending α

/-- The time that is over, if it is. -/
def exceeded? (limit? : Option Nat) (now : Nat) : Option Nat := limit?.filter (· < now)

/-- The dialogue run against a collaborator, from the given time on. A call that would end after
the limit is cut off there, whatever it would have come to. -/
def Dialogue.run {α : Type} (collaborator : Collaborator) (limit? : Option Nat) (elapsed : Nat) :
    Dialogue α → Run α
  | done a => { calls := [], elapsed, ending := .finished a }
  | ask call next =>
    let reply := collaborator call
    let now := elapsed + reply.delay
    match exceeded? limit? now with
    | some limit => { calls := [call], elapsed := limit, ending := .timedOut limit }
    | none =>
      match reply.outcome with
      | .answer a =>
        let rest := (next a).run collaborator limit? now
        { rest with calls := call :: rest.calls }
      | .failure f => { calls := [call], elapsed := now, ending := .failed f }
      | .panic words => { calls := [call], elapsed := now, ending := .panicked words }

end QueryReview.Session
