-- Decimal digits: those of every script, and the ten of ASCII with their values.
import QueryReview.Text.DigitTable

namespace QueryReview.Text

/-- A decimal digit of any script. -/
def isAnyDigit (c : Char) : Bool :=
  if c.toNat < 0x80 then c.isDigit else digitRanges.has c.toNat

/-- The value of an ASCII digit. -/
def digitValue? (c : Char) : Option Nat :=
  if c.isDigit then some (c.toNat - 0x30) else none

/-- The number that a run of ASCII digits writes, which is 0 for the empty run. -/
def digitsValue? (cs : List Char) : Option Nat :=
  cs.foldl (fun acc c => acc.bind fun n => (digitValue? c).map (10 * n + ·)) (some 0)

/-- The number that one or more ASCII digits write. -/
def natural? (cs : List Char) : Option Nat :=
  if cs.isEmpty then none else digitsValue? cs

/-- The value of a hexadecimal digit, in either case. -/
def hexValue? (c : Char) : Option Nat :=
  if c.isDigit then some (c.toNat - 0x30)
  else if 'a' ≤ c ∧ c ≤ 'f' then some (c.toNat - 0x61 + 10)
  else if 'A' ≤ c ∧ c ≤ 'F' then some (c.toNat - 0x41 + 10)
  else none

end QueryReview.Text
