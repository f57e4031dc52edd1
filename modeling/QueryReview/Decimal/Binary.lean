-- A double as a sign and a whole number times a power of two. All decimal text is worked out
-- from this form in exact arithmetic.

namespace QueryReview.Decimal

/-- The number `mantissa * 2 ^ exponent`, with a sign that zero has too. -/
structure Binary where
  negative : Bool
  mantissa : Nat
  exponent : Int
deriving DecidableEq, Repr

namespace Binary

/-- The parts of a finite double, read off its bits. -/
def ofFloat (x : Float) : Binary :=
  let bits := x.toBits.toNat
  let field := bits / Nat.pow 2 52 % Nat.pow 2 11
  let fraction := bits % Nat.pow 2 52
  if field = 0 then ⟨Nat.pow 2 63 ≤ bits, fraction, -1074⟩
  else ⟨Nat.pow 2 63 ≤ bits, fraction + Nat.pow 2 52, Int.ofNat field - 1075⟩

/-- The size of the number is `numerator / denominator`. -/
def numerator (b : Binary) : Nat := b.mantissa * Nat.pow 2 b.exponent.toNat

def denominator (b : Binary) : Nat := Nat.pow 2 (-b.exponent).toNat

/-- The number has no fractional part. -/
def isWhole (b : Binary) : Bool := b.numerator % b.denominator == 0

/-- The number without its fractional part. -/
def truncate (b : Binary) : Int :=
  let size := Int.ofNat (b.numerator / b.denominator)
  if b.negative then -size else size

end Binary

/-- The number nearest to `n` from `low` to `high`. -/
def clamp (low high n : Int) : Int := max low (min high n)

/-- The double cut toward zero to a signed number of 64 bits. What does not fit goes to the
nearest end of the range, and what is not a number to zero. -/
def truncateToSigned64 (x : Float) : Int :=
  if x.isNaN then 0 else clamp (-Int.pow 2 63) (Int.pow 2 63 - 1) (Binary.ofFloat x).truncate

end QueryReview.Decimal
