-- The fewest decimal digits that read back as the same double. Every double stands for an
-- interval of reals, those that round to it; the digits are those of the coarsest decimal grid
-- with a point in the interval.
import QueryReview.Decimal.Binary

namespace QueryReview.Decimal

/-- The number `digits * 10 ^ power`. -/
structure Digits where
  digits : Nat
  power : Int
deriving DecidableEq, Repr

/-- Which of two equally near numbers is taken. -/
inductive Tie
  | toEven
  | up
deriving DecidableEq, Repr

/-- A double and the interval of the reals that round to it, all over one denominator. -/
structure Reach where
  value : Nat
  low : Nat
  high : Nat
  denominator : Nat
  /-- The ends of the interval round to the double too. -/
  closed : Bool
deriving Repr

/-- The doubles below a power of two lie twice as close as those above it, except at the bottom of
the range, so the interval reaches half as far down. -/
def Reach.ofBinary (b : Binary) : Reach :=
  let scale := Nat.pow 2 b.exponent.toNat
  let below := if b.mantissa = Nat.pow 2 52 ∧ -1074 < b.exponent then 1 else 2
  { value := 4 * b.mantissa * scale
    low := (4 * b.mantissa - below) * scale
    high := (4 * b.mantissa + 2) * scale
    denominator := 4 * b.denominator
    closed := b.mantissa % 2 = 0 }

/-- The point of the grid of multiples of `10 ^ power` that is in the interval, if there is one,
as the multiple it is. Of two the nearer is taken. -/
def Reach.onGrid (r : Reach) (tie : Tie) (power : Int) : Option Nat :=
  let unit := r.denominator * Nat.pow 10 power.toNat
  let scale := Nat.pow 10 (-power).toNat
  let value := r.value * scale
  let below := value / unit
  let rest := value % unit
  let inside (n : Nat) : Bool :=
    if r.closed then r.low * scale ≤ n * unit && n * unit ≤ r.high * scale
    else r.low * scale < n * unit && n * unit < r.high * scale
  match inside below, inside (below + 1) with
  | true, false => some below
  | false, true => some (below + 1)
  | false, false => none
  | true, true =>
    if 2 * rest < unit then some below
    else if unit < 2 * rest then some (below + 1)
    else match tie with
      | .up => some (below + 1)
      | .toEven => some (if below % 2 = 0 then below else below + 1)

/-- How many decimal digits the number has. -/
def digitCount (n : Nat) : Nat := (Nat.toDigits 10 n).length

/-- The power of ten of the leading digit of `numerator / denominator`, which is not zero. -/
def leadingPower (numerator denominator : Nat) : Int :=
  if denominator ≤ numerator then Int.ofNat (digitCount (numerator / denominator)) - 1
  else -Int.ofNat (digitCount ((denominator - 1) / numerator))

/-- The same number with no zero at the end of its digits. -/
def Digits.trimZeros (digits : Nat) (power : Int) : Digits :=
  if h : 0 < digits ∧ digits % 10 = 0 then trimZeros (digits / 10) (power + 1) else ⟨digits, power⟩
termination_by digits
decreasing_by omega

/-- The digits of a double that is not zero. Seventeen are enough for every double. -/
def shortest (tie : Tie) (b : Binary) : Digits :=
  let reach := Reach.ofBinary b
  let top := leadingPower reach.value reach.denominator
  let found := (List.range 17).findSome? fun n =>
    let power := top - Int.ofNat n
    (reach.onGrid tie power).map fun digits => Digits.trimZeros digits power
  found.getD ⟨0, 0⟩

/-- The digits of a double, where zero has the digit 0. -/
def Digits.ofBinary (tie : Tie) (b : Binary) : Digits :=
  if b.mantissa = 0 then ⟨0, 0⟩ else shortest tie b

end QueryReview.Decimal
