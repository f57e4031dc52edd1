-- Verdicts and policies as documents.
import QueryReview.Statement.Verdict
import QueryReview.Wire.Record

namespace QueryReview.Wire

open QueryReview.Statement

def blockReasonName : BlockReason → String
  | .destructiveStatement => "destructive_statement"
  | .disallowedConstruct => "disallowed_construct"
  | .multipleStatements => "multiple_statements"

/-- A verdict names its status, and a blocked one its reason too. -/
def ofVerdict : Verdict → Json
  | .safe => .object [("status", .string "safe")]
  | .blocked reason =>
    .object [("status", .string "blocked"), ("reason", .string (blockReasonName reason))]

def blockReasons : List (String × BlockReason) := [
  ("destructive_statement", .destructiveStatement),
  ("disallowed_construct", .disallowedConstruct),
  ("multiple_statements", .multipleStatements)]

def readBlockReason : Json → Option BlockReason := readName blockReasons

/-- The reason of a blocked verdict. -/
def readBlocked (j : Json) : Option Verdict := do
  let r ← Record.of? 1 j
  let reason ← r.required 0 "reason" (readLooseName blockReasons)
  pure (.blocked reason)

/-- A verdict by its status. In an array the status comes first, and a safe verdict has nothing
behind it. -/
def readVerdict : Json → Option Verdict
  | .object members =>
    match Json.member? "status" members with
    | some (.string "safe") => some .safe
    | some (.string "blocked") => readBlocked (.object members)
    | _ => none
  | .array [.string "safe"] => some .safe
  | .array (.string "blocked" :: rest) => readBlocked (.array rest)
  | _ => none

def ofPolicy (p : Policy) : Json :=
  .object [("reject_multiple_statements", .bool p.rejectMultipleStatements)]

def readPolicy (j : Json) : Option Policy := do
  let r ← Record.of? 1 j
  let rejectMultipleStatements ← r.required 0 "reject_multiple_statements" readBool
  pure { rejectMultipleStatements }

end QueryReview.Wire
