-- Text in quotes, with each character that would not show written out.
import QueryReview.Text.HiddenTable

namespace QueryReview.Text

/-- The character by its number, in hexadecimal between braces. -/
def numbered (c : Char) : List Char :=
  ['\\', 'u', '\x7b'] ++ Nat.toDigits 16 c.toNat ++ ['\x7d']

/-- The written form of one character between quotes. -/
def quotedChar (c : Char) : List Char :=
  if c = '\x00' then ['\\', '0']
  else if c = '\t' then ['\\', 't']
  else if c = '\n' then ['\\', 'n']
  else if c = '\r' then ['\\', 'r']
  else if c = '\\' then ['\\', '\\']
  else if c = '\x22' then ['\\', '\x22']
  else if hiddenRanges.has c.toNat then numbered c
  else [c]

/-- The text between double quotes. -/
def quoted (cs : List Char) : List Char := '\x22' :: cs.flatMap quotedChar ++ ['\x22']

end QueryReview.Text
