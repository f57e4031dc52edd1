-- White space, and text with the white space taken off its ends.
import QueryReview.Text.Ranges

namespace QueryReview.Text

/-- The characters with the property White_Space. -/
def blankRanges : Ranges := [
  (0x9, 0xd), (0x20, 0x20), (0x85, 0x85), (0xa0, 0xa0), (0x1680, 0x1680), (0x2000, 0x200a),
  (0x2028, 0x2029), (0x202f, 0x202f), (0x205f, 0x205f), (0x3000, 0x3000)]

/-- White space in any script. -/
def isBlank (c : Char) : Bool := blankRanges.has c.toNat

def trimStart (cs : List Char) : List Char := cs.dropWhile isBlank

def trimEnd (cs : List Char) : List Char := (cs.reverse.dropWhile isBlank).reverse

/-- The text without the white space at its two ends. -/
def trim (cs : List Char) : List Char := trimEnd (trimStart cs)

/-- Nothing but white space, or nothing at all. -/
def allBlank (cs : List Char) : Bool := cs.all isBlank

end QueryReview.Text
