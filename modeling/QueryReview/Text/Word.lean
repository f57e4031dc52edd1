-- Words: the characters they are made of, and the places in a text where one may start.
import QueryReview.Text.WordTable

namespace QueryReview.Text

/-- A letter, mark, decimal digit, connector or joiner of any script. -/
def isWordChar (c : Char) : Bool :=
  if c.toNat < 0x80 then c.isAlphanum || c == '_' else wordRanges.has c.toNat

/-- The text does not go on with a word character. -/
def wordEnds : List Char → Bool
  | [] => true
  | c :: _ => !isWordChar c

/-- A word may start after `before`, the character in front, if there is one. -/
def wordMayStart (before : Option Char) : Bool :=
  match before with
  | none => true
  | some c => !isWordChar c

/-- Some place of the text where a word may start passes the test. The test sees the text from
that place on. -/
def anyWordStart (test : List Char → Bool) (before : Option Char) : List Char → Bool
  | [] => false
  | c :: rest =>
    (wordMayStart before && test (c :: rest)) || anyWordStart test (some c) rest

/-- The first answer at a place where a word may start, from the left. -/
def firstAtWordStart {α : Type} (read : List Char → Option α) (before : Option Char) :
    List Char → Option α
  | [] => none
  | c :: rest =>
    match if wordMayStart before then read (c :: rest) else none with
    | some a => some a
    | none => firstAtWordStart read (some c) rest

end QueryReview.Text
