-- Text in small letters, by the full mappings of the character database.
import QueryReview.Text.LowerTable
import QueryReview.Text.CasedTable
import QueryReview.Text.CaseIgnorableTable

namespace QueryReview.Text

/-- The capital sigma, the one letter whose small form hangs on its place in the word. -/
def sigma : Char := '\u03a3'

def isCased (c : Char) : Bool := casedRanges.has c.toNat

def isCaseIgnorable (c : Char) : Bool := caseIgnorableRanges.has c.toNat

/-- The small form in the first run that holds the code point, which is the code point itself
when none does. -/
def lowerInRuns (n : Nat) : List LowerRun → Nat
  | [] => n
  | (first, last, step, shift) :: rest =>
    if first ≤ n ∧ n ≤ last ∧ (n - first) % step = 0 then (Int.ofNat n + shift).toNat
    else lowerInRuns n rest

/-- The small form of one character. The dotted capital I gives two. -/
def lowerChar (c : Char) : List Char :=
  if c.toNat < 0x80 then [c.toLower]
  else if c.toNat = 0x130 then ['i', '\u0307']
  else [Char.ofNat (lowerInRuns c.toNat lowerRuns)]

/-- The nearest character that the look at case does not skip is cased. -/
def nextIsCased (cs : List Char) : Bool :=
  match cs.dropWhile isCaseIgnorable with
  | [] => false
  | c :: _ => isCased c

/-- The small form of a text, where `before` is what stands in front of it, last character first.
A sigma at the end of a word has a form of its own. -/
def lowerAfter (before : List Char) : List Char → List Char
  | [] => []
  | c :: cs =>
    if c = sigma then
      (if nextIsCased before && !nextIsCased cs then '\u03c2' else '\u03c3')
        :: lowerAfter (c :: before) cs
    else lowerChar c ++ lowerAfter (c :: before) cs

/-- The text in small letters. -/
def lower (cs : List Char) : List Char := lowerAfter [] cs

end QueryReview.Text
