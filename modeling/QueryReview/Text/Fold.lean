-- Letters compared without their case.

namespace QueryReview.Text

/-- The long s, which folds to `s`. -/
def longS : Char := '\u017f'

/-- The kelvin sign, which folds to `k`. -/
def kelvin : Char := '\u212a'

/-- The dotless i, whose capital is the letter `I`. -/
def dotlessI : Char := '\u0131'

/-- The character is the given capital or folds to the same letter. Of the characters beyond
ASCII, the long s and the kelvin sign are the only ones that fold to an ASCII letter. -/
def foldsTo (capital c : Char) : Bool :=
  c == capital || c == capital.toLower || (c == longS && capital == 'S')
    || (c == kelvin && capital == 'K')

/-- What follows the word, given in capitals, when the text starts with it in any case. -/
def afterWord? : List Char → List Char → Option (List Char)
  | [], cs => some cs
  | _ :: _, [] => none
  | w :: ws, c :: cs => if foldsTo w c then afterWord? ws cs else none

/-- The capital form of the character is the given ASCII capital. -/
def capitalIs (capital c : Char) : Bool :=
  c == capital || c == capital.toLower || (c == longS && capital == 'S')
    || (c == dotlessI && capital == 'I')

/-- The text in capitals is the given word of ASCII capitals. -/
def capitalsAre : List Char → List Char → Bool
  | [], [] => true
  | w :: ws, c :: cs => capitalIs w c && capitalsAre ws cs
  | _, _ => false

end QueryReview.Text
