-- Decimal numerals: where one ends in a text, and the double nearest to its value.
import QueryReview.Text.Digit

namespace QueryReview.Decimal

open Text

/-- The longest run of characters that pass, and the text after it. -/
def takeRun (test : Char → Bool) (cs : List Char) : List Char × List Char :=
  (cs.takeWhile test, cs.dropWhile test)

/-- The sign at the start, if there is one, and the text after it. -/
def takeSign : List Char → List Char × List Char
  | '+' :: cs => (['+'], cs)
  | '-' :: cs => (['-'], cs)
  | cs => ([], cs)

/-- A numeral in parts. The digits may be of any script. -/
structure Numeral where
  sign : List Char
  whole : List Char
  point : Bool
  fraction : List Char
  /-- The letter of the exponent, its sign and its digits. -/
  exponent : Option (Char × List Char × List Char)
deriving DecidableEq, Repr

namespace Numeral

/-- The exponent at the start of the text, and the text after it. -/
def exponentAt? : List Char → Option ((Char × List Char × List Char) × List Char)
  | [] => none
  | c :: cs =>
    if c = 'e' ∨ c = 'E' then
      let (sign, afterSign) := takeSign cs
      match takeRun isAnyDigit afterSign with
      | ([], _) => none
      | (digits, rest) => some ((c, sign, digits), rest)
    else none

/-- The numeral with the exponent that follows it, if one does. -/
def withExponent (n : Numeral) (cs : List Char) : Numeral × List Char :=
  match exponentAt? cs with
  | some (e, rest) => ({ n with exponent := some e }, rest)
  | none => (n, cs)

/-- The longest numeral at the start of the text, and the text after it: an optional sign, digits
with an optional point among, before or behind them, and an optional exponent. -/
def read? (cs : List Char) : Option (Numeral × List Char) :=
  let (sign, afterSign) := takeSign cs
  match takeRun isAnyDigit afterSign with
  | ([], '.' :: more) =>
    match takeRun isAnyDigit more with
    | ([], _) => none
    | (fraction, rest) => some (withExponent ⟨sign, [], true, fraction, none⟩ rest)
  | ([], _) => none
  | (whole, '.' :: more) =>
    let (fraction, rest) := takeRun isAnyDigit more
    some (withExponent ⟨sign, whole, true, fraction, none⟩ rest)
  | (whole, rest) => some (withExponent ⟨sign, whole, false, [], none⟩ rest)

/-- The numeral as it stands in the text. -/
def text (n : Numeral) : List Char :=
  n.sign ++ n.whole ++ (if n.point then ['.'] else []) ++ n.fraction ++
    match n.exponent with
    | none => []
    | some (mark, sign, digits) => mark :: (sign ++ digits)

/-- The power of ten that the exponent names, when its digits are ASCII. -/
def power? (n : Numeral) : Option Int :=
  match n.exponent with
  | none => some 0
  | some (_, sign, digits) =>
    (digitsValue? digits).map fun e => if sign = ['-'] then -Int.ofNat e else Int.ofNat e

end Numeral

/-- The double nearest to `m * 10 ^ e`, unless that is too large for a double. -/
def nearest? (m : Nat) (e : Int) : Option Float :=
  let places := Int.ofNat (Nat.toDigits 10 m).length + e
  if m = 0 ∨ places < -400 then some 0.0
  else if 400 < places then none
  else
    let x := Float.ofScientific m (decide (e < 0)) e.natAbs
    if x.isFinite then some x else none

/-- The finite double nearest to the numeral. Digits of other scripts give no value. -/
def Numeral.value? (n : Numeral) : Option Float := do
  let m ← digitsValue? (n.whole ++ n.fraction)
  let e ← n.power?
  let x ← nearest? m (e - Int.ofNat n.fraction.length)
  pure (if n.sign = ['-'] then -x else x)

/-- The finite double nearest to a text that is one numeral and nothing else. -/
def float? (cs : List Char) : Option Float :=
  match Numeral.read? cs with
  | some (n, []) => n.value?
  | _ => none

end QueryReview.Decimal
