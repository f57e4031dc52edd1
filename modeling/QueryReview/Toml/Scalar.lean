-- Numbers, truth values, dates and times in TOML.
import QueryReview.Decimal.Numeral
import QueryReview.Text.Reader
import QueryReview.Toml.Value

namespace QueryReview.Toml

open QueryReview.Text
open QueryReview.Text.Reader

/-! ## Numbers -/

/-- One or more digits. A low line may stand between two of them and is left out. -/
def digits (test : Char → Bool) : Reader (List Char) := do
  let first ← char test
  let more ← many (char test <|> (char (· == '_') *> char test))
  pure (first :: more)

/-- Digits of which the first is not zero, or zero alone. -/
def wholeDigits : Reader (List Char) :=
  (fun _ => ['0']) <$> exactly ['0'] <|> digits Char.isDigit

def sign : Reader (List Char) :=
  fun cs => some (Decimal.takeSign cs)

/-- The numbers of 64 bits with a sign. -/
def isLong (n : Int) : Bool := -Int.pow 2 63 ≤ n && n < Int.pow 2 63

/-- A whole number with no sign, with its digits in the given base. -/
def based (mark : List Char) (base : Nat) : Reader Int := do
  exactly mark
  let ds ← digits fun c => (hexValue? c).any (· < base)
  pure (Int.ofNat (ds.foldl (fun n c => base * n + (hexValue? c).getD 0) 0))

def decimalInteger : Reader Int := do
  let minus := (← sign) == ['-']
  let n ← lift (digitsValue? (← wholeDigits))
  pure (if minus then -Int.ofNat n else Int.ofNat n)

def integer : Reader Int := do
  let n ← based ['0', 'x'] 16 <|> based ['0', 'o'] 8 <|> based ['0', 'b'] 2 <|> decimalInteger
  guard (isLong n)
  pure n

def fraction : Reader (List Char) := exactly ['.'] *> digits Char.isDigit

def exponent : Reader (Char × List Char × List Char) := do
  let mark ← char fun c => c == 'e' || c == 'E'
  let s ← sign
  let ds ← digits Char.isDigit
  pure (mark, s, ds)

def infinity : Float := 1.0 / 0.0

/-- A number with a fraction or an exponent. One that is too large for a double is refused, and
one that is too small is minus infinity. -/
def numeral : Reader Float := do
  let s ← sign
  let whole ← wholeDigits
  let part ← maybe fraction
  let power ← maybe exponent
  guard (part.isSome ∨ power.isSome)
  let n : Decimal.Numeral := {
    sign := s, whole, point := part.isSome, fraction := part.getD [], exponent := power }
  lift (n.value? <|> (if s = ['-'] then some (-infinity) else none))

def special : Reader Float := do
  let minus := (← sign) == ['-']
  let x ← (fun _ => infinity) <$> exactly ['i', 'n', 'f']
    <|> (fun _ => infinity - infinity) <$> exactly ['n', 'a', 'n']
  pure (if minus then -x else x)

def float : Reader Float := numeral <|> special

/-! ## Dates and times -/

/-- A number of so many digits, within bounds. -/
def field (size least most : Nat) : Reader Nat := do
  let n ← lift (natural? (← (List.range size).mapM fun _ => char Char.isDigit))
  guard (least ≤ n ∧ n ≤ most)
  pure n

def isLeapYear (year : Nat) : Bool := year % 4 == 0 && (year % 100 != 0 || year % 400 == 0)

def daysOf (year month : Nat) : Nat :=
  if month = 2 then (if isLeapYear year then 29 else 28)
  else if month = 4 ∨ month = 6 ∨ month = 9 ∨ month = 11 then 30
  else 31

def date : Reader Unit := do
  let year ← field 4 0 9999
  let month ← exactly ['-'] *> field 2 1 12
  discard (exactly ['-'] *> field 2 1 (daysOf year month))

def time : Reader Unit := do
  discard (field 2 0 23)
  discard (exactly [':'] *> field 2 0 59)
  discard (exactly [':'] *> field 2 0 60)
  discard (maybe (exactly ['.'] *> char Char.isDigit *> stretch Char.isDigit))

def zone : Reader Unit :=
  discard (char fun c => c == 'Z' || c == 'z')
    <|> discard (char (fun c => c == '+' || c == '-') *> field 2 0 23 *> exactly [':'] *> field 2 0 59)

/-- A date, with or without a time, or a time alone. -/
def moment : Reader Unit :=
  (date *> discard (maybe (char (fun c => c == 'T' || c == 't' || c == ' ') *> time *> maybe zone)))
    <|> time

/-- What the reader takes, as it stands. -/
def taken (read : Reader Unit) : Reader String := fun cs =>
  (read cs).map fun (_, rest) => (String.ofList (cs.take (cs.length - rest.length)), rest)

/-! ## Any of them -/

def bool : Reader Bool :=
  (fun _ => true) <$> exactly ['t', 'r', 'u', 'e']
    <|> (fun _ => false) <$> exactly ['f', 'a', 'l', 's', 'e']

/-- A value without parts, but for text. -/
def scalar : Reader Value :=
  Value.bool <$> bool <|> Value.moment <$> taken moment <|> Value.float <$> float
    <|> Value.integer <$> integer

end QueryReview.Toml
