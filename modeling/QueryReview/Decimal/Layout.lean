-- Doubles as text: in as few digits as read back, or with a fixed number of decimal places.
import QueryReview.Decimal.Shortest

namespace QueryReview.Decimal

def digitChars (n : Nat) : List Char := Nat.toDigits 10 n

/-- The digits with a point before the last `places` of them, and a zero in front of a point
that would come first. -/
def withPoint (places : Nat) (digits : List Char) : List Char :=
  if places = 0 then digits
  else
    let padded := List.replicate (places + 1 - digits.length) '0' ++ digits
    padded.take (padded.length - places) ++ '.' :: padded.drop (padded.length - places)

def signed (negative : Bool) (cs : List Char) : List Char := if negative then '-' :: cs else cs

/-- The number written out in full, with no exponent. -/
def Digits.positional (d : Digits) : List Char :=
  if 0 ≤ d.power then digitChars d.digits ++ List.replicate (if d.digits = 0 then 0 else d.power.toNat) '0'
  else withPoint (-d.power).toNat (digitChars d.digits)

/-- The fewest digits that read back, written out in full. Of two equally near the upper one is
taken, and zero keeps its sign. -/
def plain (x : Float) : List Char :=
  let b := Binary.ofFloat x
  signed b.negative (Digits.ofBinary .up b).positional

/-- The whole number nearest to a quotient. A half goes to the even neighbour. -/
def roundDiv (numerator denominator : Nat) : Nat :=
  let below := numerator / denominator
  let rest := numerator % denominator
  if 2 * rest < denominator then below
  else if denominator < 2 * rest then below + 1
  else if below % 2 = 0 then below else below + 1

/-- The double rounded to so many decimal places. A half goes to the even neighbour, and the sign
stays when nothing else is left. -/
def fixed (places : Nat) (x : Float) : List Char :=
  let b := Binary.ofFloat x
  signed b.negative
    (withPoint places (digitChars (roundDiv (b.numerator * Nat.pow 10 places) b.denominator)))

/-- A count of rows: whole numbers below 10^15 without a point, all others in the fewest digits
that read back. -/
def count (x : Float) : List Char :=
  if (Binary.ofFloat x).isWhole && x.abs < 1e15 then fixed 0 x else plain x

/-- The exponent of the scientific form: the place of the leading digit. -/
def Digits.scientificExponent (d : Digits) : Int :=
  Int.ofNat (digitCount d.digits) - 1 + d.power

/-- The scientific form: one digit before the point, and the exponent with its sign. -/
def Digits.scientific (d : Digits) : List Char :=
  let cs := digitChars d.digits
  let mantissa := if cs.length ≤ 1 then cs else withPoint (cs.length - 1) cs
  let e := d.scientificExponent
  mantissa ++ ['e', if e < 0 then '-' else '+'] ++ digitChars e.natAbs

/-- A double in a document: always with a point or an exponent, and with an exponent from 10^16
on and below 10^-5. Of two equally near the even one is taken. -/
def literal (x : Float) : List Char :=
  let b := Binary.ofFloat x
  let d := Digits.ofBinary .toEven b
  signed b.negative <|
    if 16 ≤ d.scientificExponent ∨ d.scientificExponent < -5 then d.scientific
    else if 0 ≤ d.power then d.positional ++ ['.', '0'] else d.positional

end QueryReview.Decimal
