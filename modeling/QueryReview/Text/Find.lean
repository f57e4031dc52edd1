-- Pieces of a text: where one occurs, what stands around it, and the lines of a text.

namespace QueryReview.Text

/-- What follows `piece` when the text starts with it. -/
def after? : List Char → List Char → Option (List Char)
  | [], cs => some cs
  | _ :: _, [] => none
  | p :: ps, c :: cs => if p = c then after? ps cs else none

/-- The text starts with the piece. -/
def startsWith (piece cs : List Char) : Bool := (after? piece cs).isSome

/-- The piece occurs somewhere in the text. -/
def occursIn (piece : List Char) : List Char → Bool
  | [] => piece.isEmpty
  | c :: cs => startsWith piece (c :: cs) || occursIn piece cs

/-- The text before the first occurrence of the piece, and the text after it. -/
def cut? (piece : List Char) : List Char → Option (List Char × List Char)
  | [] => if piece.isEmpty then some ([], []) else none
  | c :: cs =>
    match after? piece (c :: cs) with
    | some rest => some ([], rest)
    | none => (cut? piece cs).map fun (before, rest) => (c :: before, rest)

/-- The lines of a text. A line ends at a line feed, and a carriage return in front of that is no
part of the line. No line follows a line feed that ends the text. -/
def lines : List Char → List (List Char)
  | [] => []
  | '\n' :: cs => [] :: lines cs
  | '\r' :: '\n' :: cs => [] :: lines cs
  | c :: cs =>
    match lines cs with
    | [] => [[c]]
    | line :: more => (c :: line) :: more

/-- The text without the given character at its end. -/
def dropEnd (c : Char) (cs : List Char) : List Char := (cs.reverse.dropWhile (· == c)).reverse

/-- The texts in a row, with `gap` between each two. -/
def join (gap : List Char) : List (List Char) → List Char
  | [] => []
  | [line] => line
  | line :: more => line ++ gap ++ join gap more

end QueryReview.Text
