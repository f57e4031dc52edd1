-- The characters of a double that is written out in full: digits, a point and a sign.
import QueryReview.Decimal.Layout

namespace QueryReview.Decimal

/-- A character that a number is written with. -/
def isNumberChar (c : Char) : Bool := c.isDigit || c == '.' || c == '-'

/-- The text is written with the characters of numbers alone. -/
def Numeric (cs : List Char) : Prop := ∀ c ∈ cs, isNumberChar c = true

theorem Numeric.append {cs ds : List Char} (h : Numeric cs) (hd : Numeric ds) :
    Numeric (cs ++ ds) :=
  List.forall_mem_append.mpr ⟨h, hd⟩

theorem Numeric.not_mem {cs : List Char} (h : Numeric cs) {c : Char}
    (hc : isNumberChar c = false) : c ∉ cs := by
  intro hmem
  rw [h c hmem] at hc
  cases hc

theorem numeric_replicate (n : Nat) : Numeric (List.replicate n '0') := by
  intro c hc
  rw [(List.mem_replicate.mp hc).2]
  rfl

theorem numeric_digitChars (n : Nat) : Numeric (digitChars n) := by
  intro c hc
  have hdigit : c.isDigit = true := Nat.isDigit_of_mem_toDigits (by decide) (by decide) hc
  simp [isNumberChar, hdigit]

theorem Numeric.withPoint {digits : List Char} (h : Numeric digits) (places : Nat) :
    Numeric (withPoint places digits) := by
  unfold Decimal.withPoint
  split
  · exact h
  · have hpadded := (numeric_replicate (places + 1 - digits.length)).append h
    generalize List.replicate (places + 1 - digits.length) '0' ++ digits = padded at *
    intro c hc
    rcases List.mem_append.mp hc with hc | hc
    · exact hpadded c (List.mem_of_mem_take hc)
    · rcases List.mem_cons.mp hc with rfl | hc
      · rfl
      · exact hpadded c (List.mem_of_mem_drop hc)

theorem Numeric.signed {cs : List Char} (h : Numeric cs) (negative : Bool) :
    Numeric (signed negative cs) := by
  unfold Decimal.signed
  split
  · intro c hc
    rcases List.mem_cons.mp hc with rfl | hc
    · rfl
    · exact h c hc
  · exact h

theorem numeric_positional (d : Digits) : Numeric d.positional := by
  unfold Digits.positional
  split
  · exact (numeric_digitChars _).append (numeric_replicate _)
  · exact (numeric_digitChars _).withPoint _

theorem numeric_plain (x : Float) : Numeric (plain x) := (numeric_positional _).signed _

theorem numeric_fixed (places : Nat) (x : Float) : Numeric (fixed places x) :=
  ((numeric_digitChars _).withPoint _).signed _

theorem numeric_count (x : Float) : Numeric (count x) := by
  unfold count
  split
  · exact numeric_fixed 0 x
  · exact numeric_plain x

end QueryReview.Decimal
