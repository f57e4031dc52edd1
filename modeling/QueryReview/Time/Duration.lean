-- Lengths of time, to the nanosecond. Whole seconds are counted in 64 bits.

namespace QueryReview.Time

structure Duration where
  nanoseconds : Nat
deriving DecidableEq, Repr

namespace Duration

def perSecond : Nat := Nat.pow 10 9

/-- The first number of nanoseconds that is too long. -/
def limit : Nat := Nat.pow 2 64 * perSecond

def zero : Duration := ⟨0⟩

def ofMillis (n : Nat) : Duration := ⟨n * Nat.pow 10 6⟩

def ofMicros (n : Nat) : Duration := ⟨n * Nat.pow 10 3⟩

/-- Seconds and nanoseconds together, unless that is too long. -/
def ofParts? (seconds nanoseconds : Nat) : Option Duration :=
  let n := seconds * perSecond + nanoseconds
  if n < limit then some ⟨n⟩ else none

/-- The sum of two lengths, unless it is too long. -/
def add? (a b : Duration) : Option Duration :=
  if a.nanoseconds + b.nanoseconds < limit then some ⟨a.nanoseconds + b.nanoseconds⟩ else none

/-- Whole milliseconds. -/
def millis (d : Duration) : Nat := d.nanoseconds / Nat.pow 10 6

/-- Seconds as a double: whole seconds and the rest are rounded each for itself, and then added. -/
def seconds (d : Duration) : Float :=
  (d.nanoseconds / perSecond).toUInt64.toFloat
    + (d.nanoseconds % perSecond).toUInt64.toFloat / perSecond.toUInt64.toFloat

/-- The first length is the longer one. -/
def longer (a b : Duration) : Bool := b.nanoseconds < a.nanoseconds

end Duration

end QueryReview.Time
