-- May a statement be sent to the database for its plan? The verdict looks at the text without
-- its comments: at the word it starts with, at constructs that reach outside the database, and,
-- under the strict policy, at a second statement.
import QueryReview.Statement.Piece
import QueryReview.Text.Blank
import QueryReview.Text.Find
import QueryReview.Text.Fold
import QueryReview.Text.Word

namespace QueryReview.Statement

open Text

/-- Why a statement is refused. -/
inductive BlockReason
  | destructiveStatement
  | disallowedConstruct
  | multipleStatements
deriving DecidableEq, Repr

def BlockReason.message : BlockReason → String
  | .destructiveStatement => "destructive statement"
  | .disallowedConstruct => "disallowed construct"
  | .multipleStatements => "multiple statements"

/-- The outcome for one statement. -/
inductive Verdict
  | safe
  | blocked (reason : BlockReason)
deriving DecidableEq, Repr

def Verdict.reason? : Verdict → Option BlockReason
  | .safe => none
  | .blocked reason => some reason

def Verdict.isSafe (v : Verdict) : Bool := v.reason?.isNone

def Verdict.isBlocked (v : Verdict) : Bool := v.reason?.isSome

/-- What the classifier is asked to look for. -/
structure Policy where
  rejectMultipleStatements : Bool := false
deriving DecidableEq, Repr

/-- The policy that refuses a second statement. -/
def Policy.strict : Policy := { rejectMultipleStatements := true }

/-! ## The three tests -/

/-- The words that change data, tables or rights. -/
def destructiveWords : List (List Char) :=
  ["INSERT", "UPDATE", "DELETE", "DROP", "TRUNCATE", "ALTER", "CREATE", "GRANT", "REVOKE"].map
    String.toList

/-- The text starts with the whole word, in any case. -/
def startsWithWord (word cs : List Char) : Bool :=
  match afterWord? word cs with
  | some rest => wordEnds rest
  | none => false

/-- The first word of the text, after white space, is a destructive one. -/
def startsDestructive (cs : List Char) : Bool :=
  destructiveWords.any fun word => startsWithWord word (trimStart cs)

/-- The text starts with the name and, after any white space, an opening parenthesis. -/
def opensCall (name cs : List Char) : Bool :=
  match afterWord? name cs with
  | some rest => (trimStart rest).head? == some '('
  | none => false

/-- The text starts with `INTO`, white space, and the word for a file on the server. -/
def namesServerFile (cs : List Char) : Bool :=
  match afterWord? "INTO".toList cs with
  | some (c :: rest) =>
    isBlank c && ["OUTFILE", "DUMPFILE"].any fun word => startsWithWord word.toList (trimStart rest)
  | _ => false

/-- The text starts with a construct that reaches outside the database. -/
def startsDisallowed (cs : List Char) : Bool :=
  opensCall "EXEC".toList cs || opensCall "LOAD_FILE".toList cs || namesServerFile cs

/-- A disallowed construct starts at some word of the text. -/
def hasDisallowed (cs : List Char) : Bool := anyWordStart startsDisallowed none cs

/-- A semicolon outside the literals is followed by more than white space and semicolons. The
text has lost its comments already, and the semicolons that end it count for nothing. -/
def hasSecondStatement (cs : List Char) : Bool :=
  (dropEnd ';' (trimEnd (maskLiterals cs))).contains ';'

/-! ## The verdict -/

/-- The verdict on a text without comments. The first test that fails gives the reason. -/
def judge (policy : Policy) (cs : List Char) : Verdict :=
  if startsDestructive cs then .blocked .destructiveStatement
  else if hasDisallowed cs then .blocked .disallowedConstruct
  else if policy.rejectMultipleStatements && hasSecondStatement cs then .blocked .multipleStatements
  else .safe

/-- The verdict on a statement as it was submitted. -/
def classify (policy : Policy) (sql : String) : Verdict := judge policy (stripComments sql.toList)

end QueryReview.Statement
