-- The tables that a statement names after `FROM` or `JOIN`, in the order of first mention. Only
-- the words are read, not the grammar: a sub-select counts like the outer query, and of a list
-- with commas only the first name is seen.
import QueryReview.Statement.Piece
import QueryReview.Text.Blank
import QueryReview.Text.Fold
import QueryReview.Text.Word

namespace QueryReview.Statement

open Text

def backtick : Char := '\x60'

/-- A character of a table's name as it is written. Letters count without case, so the two
characters that fold to an ASCII letter count too. -/
def isNameChar (c : Char) : Bool :=
  c.isAlphanum || c == '_' || c == '.' || c == '-' || c == backtick || c == longS || c == kelvin

/-- The written name after a keyword at the start of the text, and the text after the name. -/
def nameAfterKeyword? (cs : List Char) : Option (List Char × List Char) :=
  match (afterWord? "FROM".toList cs).orElse fun _ => afterWord? "JOIN".toList cs with
  | some (c :: rest) =>
    if isBlank c then
      match (trimStart rest).takeWhile isNameChar with
      | [] => none
      | name => some (name, (trimStart rest).dropWhile isNameChar)
    else none
  | _ => none

theorem length_afterWord? {word cs rest : List Char} (h : afterWord? word cs = some rest) :
    rest.length ≤ cs.length := by
  fun_induction afterWord? word cs with
  | case1 => cases h; exact Nat.le_refl _
  | case2 => cases h
  | case3 w ws c cs _ ih => exact Nat.le_succ_of_le (ih h)
  | case4 => cases h

theorem length_lt_of_nameAfterKeyword? {cs name rest : List Char}
    (h : nameAfterKeyword? cs = some (name, rest)) : rest.length < cs.length := by
  have key : ∀ c more, ((afterWord? "FROM".toList cs).orElse
      fun _ => afterWord? "JOIN".toList cs) = some (c :: more) → (c :: more).length ≤ cs.length := by
    intro c more he
    cases hf : afterWord? "FROM".toList cs with
    | some r => rw [hf] at he; cases he; exact length_afterWord? hf
    | none => rw [hf] at he; exact length_afterWord? he
  unfold nameAfterKeyword? at h
  split at h
  · rename_i c more he
    have hk := key c more he
    split at h
    · split at h
      · cases h
      · cases h
        have h1 := (List.dropWhile_suffix isNameChar (l := trimStart more)).length_le
        have h2 := (List.dropWhile_suffix isBlank (l := more)).length_le
        simp only [trimStart, List.length_cons] at *
        omega
    · cases h
  · cases h

/-- The same at a place of the text where a word may start, with `before` in front of it. -/
def nameAt? (before : Option Char) (cs : List Char) : Option (List Char × List Char) :=
  if wordMayStart before then nameAfterKeyword? cs else none

theorem length_lt_of_nameAt? {before : Option Char} {cs name rest : List Char}
    (h : nameAt? before cs = some (name, rest)) : rest.length < cs.length := by
  unfold nameAt? at h
  split at h
  · exact length_lt_of_nameAfterKeyword? h
  · cases h

/-- The written names in the text, from left to right, where `before` is the character in front
of it. The search goes on behind each name. -/
def writtenNames (before : Option Char) (cs : List Char) : List (List Char) :=
  match cs with
  | [] => []
  | c :: rest =>
    match _h : nameAt? before (c :: rest) with
    | some (name, after) => name :: writtenNames name.getLast? after
    | none => writtenNames (some c) rest
termination_by cs.length
decreasing_by
  · exact length_lt_of_nameAt? ‹_›
  · simp

/-- The name without its backticks. -/
def plainName (written : List Char) : List Char := trim (written.filter (· != backtick))

/-- The list with `name` at its end, unless the name is empty or there already. -/
def addName (names : List String) (written : List Char) : List String :=
  let name := String.ofList (plainName written)
  if name.isEmpty || names.contains name then names else names ++ [name]

/-- The names in order of first mention, each once. -/
def distinctNames (written : List (List Char)) : List String := written.foldl addName []

/-- The tables that the statement names. -/
def tableNames (sql : String) : List String :=
  distinctNames (writtenNames none (bareCode sql.toList))

end QueryReview.Statement
