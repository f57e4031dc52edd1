-- Doubles that are written and read again. Written with a fixed number of places, a double comes
-- back as one that is written in the same way; a count comes back as the double that it was.
import QueryReview.Proofs.Decimal.Arithmetic
import QueryReview.Proofs.Decimal.Layout
import QueryReview.Proofs.Decimal.Numeral
import QueryReview.Proofs.Decimal.Reach

namespace QueryReview.Decimal

open Text

/-! ## The double nearest to digits with a power of ten -/

theorem isFinite_zero : (0.0 : Float).isFinite = true ∧ Binary.ofFloat 0.0 = ⟨false, 0, -1074⟩ := by
  decide +kernel

theorem isFinite_of_nearest? {m : ℕ} {e : ℤ} {x : Float} (h : nearest? m e = some x) :
    x.isFinite = true := by
  unfold nearest? at h
  dsimp only at h
  split at h
  · cases h
    exact isFinite_zero.1
  · split at h
    · cases h
    · split at h
      · rename_i hfinite
        cases h
        exact hfinite
      · cases h

/-- Half the smallest double and what is below it are rounded to zero. -/
theorem rounds_zero {q : ℚ} (hq : 0 ≤ q) (hle : q ≤ 2 ^ (-1075 : ℤ)) :
    Rounds q ⟨false, 0, -1074⟩ := by
  have hcanonical : (Binary.mk false 0 (-1074)).Canonical :=
    ⟨by norm_num, le_rfl, fun h => absurd rfl h⟩
  have hpos := two_zpow_pos (-1074)
  have hhalf : (2 : ℚ) ^ (-1074 : ℤ) = 2 * 2 ^ (-1075 : ℤ) := by
    rw [← two_zpow_succ]
    norm_num
  refine rounds_of_isRounded hcanonical ⟨?_, fun _ => rfl⟩ fun h => absurd rfl h
  rw [Nat.cast_zero, sub_zero, abs_of_nonneg (div_nonneg hq hpos.le), div_le_iff₀ hpos]
  linarith

theorem two_pow_le_ten_pow : (2 : ℚ) ^ (1200 : ℤ) ≤ 10 ^ (400 : ℤ) := by
  have h : ((2 : ℚ) ^ 3) ^ 400 ≤ 10 ^ 400 := pow_le_pow_left₀ (by norm_num) (by norm_num) 400
  rwa [← pow_mul, ← zpow_natCast, ← zpow_natCast] at h

/-- Numbers below this power of ten are no doubles but zero. -/
theorem ten_pow_le_two_pow : (10 : ℚ) ^ (-400 : ℤ) ≤ 2 ^ (-1075 : ℤ) :=
  calc (10 : ℚ) ^ (-400 : ℤ) ≤ 2 ^ (-1200 : ℤ) := by
        rw [zpow_neg, zpow_neg]
        exact inv_anti₀ (two_zpow_pos _) two_pow_le_ten_pow
    _ ≤ 2 ^ (-1075 : ℤ) := zpow_le_zpow_right₀ one_le_two (by norm_num)

/-- No number above this power of ten is rounded to a double. -/
theorem Rounds.lt_ten_pow {q : ℚ} {b : Binary} (h : Rounds q b) (he : b.exponent ≤ 971) :
    q < 10 ^ (400 : ℤ) := by
  refine h.lt.trans_le (le_trans ?_ two_pow_le_ten_pow)
  rw [← zpow_natCast, ← zpow_add₀ two_ne_zero]
  exact zpow_le_zpow_right₀ one_le_two (by omega)

theorem length_toDigits_bounds {m : ℕ} (hm : m ≠ 0) :
    10 ^ ((Nat.toDigits 10 m).length - 1) ≤ m ∧ m < 10 ^ (Nat.toDigits 10 m).length := by
  have hpos : 0 < (Nat.toDigits 10 m).length := List.length_pos_iff.mpr Nat.toDigits_ne_nil
  have hle : ∀ k, 0 < k → ((Nat.toDigits 10 m).length ≤ k ↔ m < 10 ^ k) := fun k hk =>
    Nat.length_toDigits_le_iff (by decide) hk
  refine ⟨?_, (hle _ hpos).mp le_rfl⟩
  by_contra hlt
  rcases Nat.eq_or_lt_of_le hpos with h | h
  · rw [← h] at hlt
    exact hlt (Nat.one_le_iff_ne_zero.mpr hm)
  · have := (hle ((Nat.toDigits 10 m).length - 1) (by omega)).mpr (by omega)
    omega

theorem scaled_bounds {m : ℕ} (hm : m ≠ 0) (e : ℤ) :
    (10 : ℚ) ^ ((Nat.toDigits 10 m).length - 1 + e) ≤ m * 10 ^ e ∧
      (m : ℚ) * 10 ^ e ≤ 10 ^ ((Nat.toDigits 10 m).length + e) := by
  obtain ⟨hlow, hhigh⟩ := length_toDigits_bounds hm
  have hlength : 0 < (Nat.toDigits 10 m).length := List.length_pos_iff.mpr Nat.toDigits_ne_nil
  have hten : ∀ k : ℕ, (10 : ℚ) ^ (k + e) = 10 ^ k * 10 ^ e := by
    intro k
    rw [zpow_add₀ (by norm_num), zpow_natCast]
  have hpos : (0 : ℚ) < 10 ^ e := zpow_pos (by norm_num) e
  constructor
  · rw [← Nat.cast_one, ← Nat.cast_sub hlength, hten]
    exact mul_le_mul_of_nonneg_right (by exact_mod_cast hlow) hpos.le
  · rw [hten]
    exact mul_le_mul_of_nonneg_right (by exact_mod_cast hhigh.le) hpos.le

/-- Digits with a power of ten are read as the double that they are rounded to, if there is one. -/
theorem nearest?_of_rounds {m : ℕ} {e : ℤ} {b : Binary} (h : Rounds (m * 10 ^ e) b)
    (he : b.exponent ≤ 971) :
    ∃ x, nearest? m e = some x ∧ x.isFinite = true ∧ Binary.ofFloat x = b := by
  have hzero : (m : ℚ) * 10 ^ e ≤ 2 ^ (-1075 : ℤ) →
      ∃ x, some (0.0 : Float) = some x ∧ x.isFinite = true ∧ Binary.ofFloat x = b := by
    intro hle
    have hrounds := rounds_zero (by positivity) hle
    rw [h.unique hrounds]
    exact ⟨0.0, rfl, isFinite_zero⟩
  unfold nearest?
  dsimp only
  rcases eq_or_ne m 0 with rfl | hm
  · rw [if_pos (.inl rfl)]
    apply hzero
    rw [Nat.cast_zero, zero_mul]
    exact (two_zpow_pos _).le
  · obtain ⟨hlow, hhigh⟩ := scaled_bounds hm e
    have hten : (1 : ℚ) ≤ 10 := by norm_num
    simp only [Int.ofNat_eq_natCast]
    split
    · rename_i hsmall
      have hsmall := hsmall.resolve_left hm
      apply hzero
      exact hhigh.trans ((zpow_le_zpow_right₀ hten (by omega)).trans ten_pow_le_two_pow)
    · rename_i hsmall
      rw [not_or] at hsmall
      split
      · rename_i hlarge
        have hbig : (10 : ℚ) ^ (400 : ℤ) ≤ m * 10 ^ e :=
          (zpow_le_zpow_right₀ hten (by omega)).trans hlow
        exact absurd (h.lt_ten_pow he) (not_lt.mpr hbig)
      · have hlog : (Nat.toDigits 10 m).length - 1 ≤ m.log2 := le_log2_of_le
          ((Nat.pow_le_pow_left (by decide) _).trans (length_toDigits_bounds hm).1)
        obtain ⟨d, hd, heq⟩ := float_ofScientific_rounds (e := e) hm (by omega) (by omega)
        rw [h.unique hd] at he ⊢
        have hparts := ofFloat_toDouble hd.canonical he
        have hfinite : d.toDouble.isFinite = true := by
          rw [isFinite_iff, hparts]
          exact he
        rw [heq, if_pos hfinite]
        exact ⟨_, rfl, hfinite, hparts⟩

/-! ## The value of a numeral -/

theorem isFinite_of_value? {n : Numeral} {x : Float} (h : n.value? = some x) :
    x.isFinite = true := by
  unfold Numeral.value? at h
  simp only [bind, pure, Option.bind_eq_some_iff] at h
  obtain ⟨m, -, e, -, y, hy, hx⟩ := h
  have hfinite := isFinite_of_nearest? hy
  cases hx
  split
  · exact isFinite_neg hfinite
  · exact hfinite

theorem digitsValue?_of_isDigit {cs : List Char} (h : ∀ c ∈ cs, c.isDigit = true) :
    digitsValue? cs = some (Nat.ofDigitChars 10 cs 0) := by
  unfold digitsValue? Nat.ofDigitChars
  generalize 0 = start
  induction cs generalizing start with
  | nil => rfl
  | cons c cs ih =>
    rw [List.forall_mem_cons] at h
    rw [List.foldl_cons, List.foldl_cons, Option.bind_some, digitValue?, if_pos h.1]
    exact ih h.2 _

/-- A numeral of ASCII digits without an exponent has the value that it is rounded to. -/
theorem value?_of_rounds {n : Numeral} {b : Binary}
    (hdigits : ∀ c ∈ n.whole ++ n.fraction, c.isDigit = true) (hexponent : n.exponent = none)
    (h : Rounds (Nat.ofDigitChars 10 (n.whole ++ n.fraction) 0 * 10 ^ (-n.fraction.length : ℤ)) b)
    (he : b.exponent ≤ 971) :
    ∃ x, n.value? = some x ∧ x.isFinite = true ∧
      Binary.ofFloat x = { b with negative := decide (n.sign = ['-']) } := by
  obtain ⟨x, hx, hfinite, hparts⟩ := nearest?_of_rounds h he
  have hpower : n.power? = some 0 := by rw [Numeral.power?, hexponent]
  have hvalue : n.value? = some (if n.sign = ['-'] then -x else x) := by
    rw [Numeral.value?, digitsValue?_of_isDigit hdigits, hpower]
    simp only [bind, Option.bind_some, pure, zero_sub, Int.ofNat_eq_natCast, hx]
  refine ⟨_, hvalue, ?_⟩
  split
  · rename_i hsign
    refine ⟨isFinite_neg hfinite, ?_⟩
    rw [ofFloat_neg hfinite, hparts, Binary.opposite, h.negative, decide_eq_true hsign]
    rfl
  · rename_i hsign
    refine ⟨hfinite, ?_⟩
    rw [hparts, decide_eq_false hsign]
    have hnegative := h.negative
    obtain ⟨negative, mantissa, exponent⟩ := b
    cases hnegative
    rfl

/-! ## The numerals that doubles are written as -/

/-- The numeral with a sign, and with a point before the last `places` of its digits. -/
def decimal (negative : Bool) (places : ℕ) (digits : List Char) : Numeral :=
  let padded := List.replicate (places + 1 - digits.length) '0' ++ digits
  { sign := signed negative []
    whole := padded.take (padded.length - places)
    point := decide (places ≠ 0)
    fraction := padded.drop (padded.length - places)
    exponent := none }

section
variable (negative : Bool) (places : ℕ) {digits : List Char}

theorem isSign_signed : IsSign (signed negative []) := by
  cases negative with
  | true => exact .inr (.inr rfl)
  | false => exact .inl rfl

theorem signed_append (cs : List Char) : signed negative [] ++ cs = signed negative cs := by
  cases negative <;> rfl

theorem decide_signed : decide (signed negative [] = ['-']) = negative := by
  cases negative <;> rfl

theorem whole_append_fraction_decimal (digits : List Char) :
    (decimal negative places digits).whole ++ (decimal negative places digits).fraction
      = List.replicate (places + 1 - digits.length) '0' ++ digits :=
  List.take_append_drop _ _

theorem lt_length_padded (digits : List Char) :
    places < (List.replicate (places + 1 - digits.length) '0' ++ digits).length := by
  rw [List.length_append, List.length_replicate]
  omega

theorem length_fraction_decimal (digits : List Char) :
    (decimal negative places digits).fraction.length = places := by
  have hlt := lt_length_padded places digits
  unfold decimal
  rw [List.length_drop]
  omega

theorem text_decimal (h : digits ≠ []) :
    (decimal negative places digits).text = signed negative (withPoint places digits) := by
  have hlength : 0 < digits.length := List.length_pos_iff.mpr h
  unfold Numeral.text decimal withPoint
  rcases eq_or_ne places 0 with rfl | hp
  · have hnone : 0 + 1 - digits.length = 0 := by omega
    rw [hnone]
    simp [signed_append]
  · rw [if_neg hp, ← signed_append negative (_ ++ _)]
    simp [hp]

theorem isDigit_padded (k : ℕ) (h : ∀ c ∈ digits, c.isDigit = true) :
    ∀ c ∈ List.replicate k '0' ++ digits, c.isDigit = true := by
  rw [List.forall_mem_append]
  refine ⟨fun c hc => ?_, h⟩
  rw [(List.mem_replicate.mp hc).2]
  rfl

theorem isAnyDigit_of_isDigit {c : Char} (h : c.isDigit = true) : isAnyDigit c = true := by
  have hlt : c.toNat < 0x80 := by
    simp only [Char.isDigit, Bool.and_eq_true, decide_eq_true_eq] at h
    exact Nat.lt_of_le_of_lt h.2 (by decide)
  rw [isAnyDigit, if_pos hlt]
  exact h

theorem whole_decimal_ne_nil (digits : List Char) : (decimal negative places digits).whole ≠ [] := by
  have hlt := lt_length_padded places digits
  apply List.ne_nil_of_length_pos
  unfold decimal
  rw [List.length_take]
  omega

theorem proper_decimal (h : ∀ c ∈ digits, c.isDigit = true) :
    (decimal negative places digits).Proper := by
  have hpadded : AllDigits (List.replicate (places + 1 - digits.length) '0' ++ digits) :=
    fun c hc => isAnyDigit_of_isDigit (isDigit_padded _ h c hc)
  refine ⟨isSign_signed negative, ?_, ?_, .inl (whole_decimal_ne_nil _ _ _), ?_, by rintro e ⟨⟩⟩
  · exact fun c hc => hpadded c (List.mem_of_mem_take hc)
  · exact fun c hc => hpadded c (List.mem_of_mem_drop hc)
  · intro hne
    have hpos : 0 < places := by
      rw [← length_fraction_decimal negative places digits]
      exact List.length_pos_iff.mpr hne
    exact decide_eq_true (by omega)

theorem ofDigitChars_padded (k : ℕ) :
    Nat.ofDigitChars 10 (List.replicate k '0' ++ digits) 0 = Nat.ofDigitChars 10 digits 0 := by
  induction k with
  | zero => rfl
  | succ k ih => exact ih

/-- The value of such a numeral is what its digits are rounded to. -/
theorem value?_decimal {b : Binary} (h : ∀ c ∈ digits, c.isDigit = true)
    (hb : Rounds (Nat.ofDigitChars 10 digits 0 * 10 ^ (-places : ℤ)) b) (he : b.exponent ≤ 971) :
    ∃ x, (decimal negative places digits).value? = some x ∧ x.isFinite = true ∧
      Binary.ofFloat x = { b with negative := negative } := by
  have hall : ∀ c ∈ (decimal negative places digits).whole
      ++ (decimal negative places digits).fraction, c.isDigit = true := by
    rw [whole_append_fraction_decimal]
    exact isDigit_padded _ h
  have hvalue := value?_of_rounds (n := decimal negative places digits) (b := b) hall rfl
  rw [whole_append_fraction_decimal, ofDigitChars_padded, length_fraction_decimal] at hvalue
  obtain ⟨x, hx, hfinite, hparts⟩ := hvalue hb he
  refine ⟨x, hx, hfinite, ?_⟩
  rw [hparts]
  congr 1
  exact decide_signed negative

end

/-! ## A fixed number of places -/

theorem isDigit_digitChars (n : ℕ) : ∀ c ∈ digitChars n, c.isDigit = true := fun _ hc =>
  Nat.isDigit_of_mem_toDigits (by decide) (by decide) hc

theorem ofDigitChars_digitChars (n : ℕ) : Nat.ofDigitChars 10 (digitChars n) 0 = n :=
  Nat.ofDigitChars_toDigits (by decide) (by decide)

theorem digitChars_ne_nil (n : ℕ) : digitChars n ≠ [] := Nat.toDigits_ne_nil

/-- The double in units of its last place. -/
def unitsOf (places : ℕ) (b : Binary) : ℕ :=
  roundDiv (b.numerator * Nat.pow 10 places) b.denominator

def fixedNumeral (places : ℕ) (x : Float) : Numeral :=
  decimal (Binary.ofFloat x).negative places (digitChars (unitsOf places (Binary.ofFloat x)))

theorem text_fixedNumeral (places : ℕ) (x : Float) : (fixedNumeral places x).text = fixed places x :=
  text_decimal _ _ (digitChars_ne_nil _)

theorem proper_fixedNumeral (places : ℕ) (x : Float) : (fixedNumeral places x).Proper :=
  proper_decimal _ _ (isDigit_digitChars _)

/-- A number that is written with a point has digits on both sides of it. -/
theorem plain_fixedNumeral {places : ℕ} (hp : places ≠ 0) (x : Float) :
    (fixedNumeral places x).Plain := by
  refine ⟨proper_fixedNumeral places x, whole_decimal_ne_nil _ _ _, fun _ hnil => hp ?_⟩
  rw [← length_fraction_decimal (Binary.ofFloat x).negative places
    (digitChars (unitsOf places (Binary.ofFloat x)))]
  exact List.eq_nil_iff_length_eq_zero.mp hnil

theorem isRounded_unitsOf (places : ℕ) (b : Binary) :
    IsRounded (b.size * 10 ^ places) (unitsOf places b) := by
  have hd : 0 < b.denominator := by simp [Binary.denominator]
  have hrounded := isRounded_roundDiv (b.numerator * 10 ^ places) hd
  rw [Nat.cast_mul, mul_div_right_comm, numerator_div_denominator, Nat.cast_pow,
    Nat.cast_ofNat] at hrounded
  exact hrounded

theorem abs_sub_unitsOf (places : ℕ) (b : Binary) (s : ℚ) :
    |s * 10 ^ places - unitsOf places b|
      = |unitsOf places b * 10 ^ (-places : ℤ) - s| * 10 ^ places := by
  have hpos : (0 : ℚ) < 10 ^ places := by positivity
  rw [← abs_of_pos hpos, ← abs_mul, abs_of_pos hpos, sub_mul, mul_assoc, zpow_neg, zpow_natCast,
    inv_mul_cancel₀ hpos.ne', mul_one, abs_sub_comm]

/-- The number that stands there is rounded to a double that has the same units, since no double
is nearer to it. -/
theorem unitsOf_of_rounds {places : ℕ} {b c : Binary} (hb : b.Canonical)
    (h : Rounds (unitsOf places b * 10 ^ (-places : ℤ)) c) :
    unitsOf places c = unitsOf places b := by
  have hnearer : |c.size * 10 ^ places - unitsOf places b|
      ≤ |b.size * 10 ^ places - unitsOf places b| := by
    rw [abs_sub_unitsOf, abs_sub_unitsOf]
    exact mul_le_mul_of_nonneg_right (h.nearest hb) (by positivity)
  exact (isRounded_unitsOf places c).unique ((isRounded_unitsOf places b).of_nearer hnearer)

theorem near_unitsOf (places : ℕ) (b : Binary) :
    |unitsOf places b * 10 ^ (-places : ℤ) - b.size| ≤ 1 / 2 := by
  have hone : (1 : ℚ) ≤ 10 ^ places := one_le_pow₀ (by norm_num)
  have hnear := (isRounded_unitsOf places b).near
  rw [abs_sub_unitsOf] at hnear
  exact (le_mul_of_one_le_right (abs_nonneg _) hone).trans hnear

/-- A number that is next to a double is not rounded to more than a double. -/
theorem exponent_le_of_near {q : ℚ} {b c : Binary} (hb : b.Canonical) (he : b.exponent ≤ 971)
    (hq : |q - b.size| ≤ 1 / 2) (h : Rounds q c) : c.exponent ≤ 971 := by
  have hnear := h.nearest hb
  have hle := abs_le.mp hq
  have hle' := abs_le.mp (hnear.trans hq)
  have hmax : b.size ≤ (2 ^ 53 - 1) * 2 ^ (971 : ℤ) := by
    have hm : (b.mantissa : ℚ) ≤ 2 ^ 53 - 1 := by
      have : (b.mantissa : ℚ) + 1 ≤ 2 ^ 53 := by exact_mod_cast hb.mantissa_lt
      linarith
    exact mul_le_mul hm (zpow_le_zpow_right₀ one_le_two he) (two_zpow_pos _).le (by norm_num)
  have hunit : (1 : ℚ) < 2 ^ (971 : ℤ) := one_lt_zpow₀ one_lt_two (by norm_num)
  have hlt : c.size < 2 ^ 52 * 2 ^ (972 : ℤ) := by
    have hdouble : (2 : ℚ) ^ (972 : ℤ) = 2 * 2 ^ (971 : ℤ) := by
      rw [← two_zpow_succ]
      norm_num
    rw [hdouble]
    generalize (2 : ℚ) ^ (971 : ℤ) = unit at hmax hunit
    linarith
  have := h.canonical.exponent_lt (by norm_num) hlt
  omega

theorem fixed_eq_of_parts {places : ℕ} {x y : Float}
    (hs : (Binary.ofFloat y).negative = (Binary.ofFloat x).negative)
    (hu : unitsOf places (Binary.ofFloat y) = unitsOf places (Binary.ofFloat x)) :
    fixed places y = fixed places x := by
  rw [← text_fixedNumeral, ← text_fixedNumeral, fixedNumeral, fixedNumeral, hs, hu]

/-- What is written with a fixed number of places is read as a double that is written so too. -/
theorem exists_value?_fixed (places : ℕ) {x : Float} (hx : x.isFinite = true) :
    ∃ y, (fixedNumeral places x).value? = some y ∧ y.isFinite = true ∧
      fixed places y = fixed places x := by
  have hcanonical := canonical_ofFloat x
  have hexponent := (isFinite_iff x).mp hx
  have hvalue : 0 ≤ (unitsOf places (Binary.ofFloat x) : ℚ) * 10 ^ (-places : ℤ) := by positivity
  obtain ⟨b, hb⟩ := exists_rounds hvalue
  have he := exponent_le_of_near hcanonical hexponent (near_unitsOf places _) hb
  have hunits := unitsOf_of_rounds hcanonical hb
  rw [← ofDigitChars_digitChars (unitsOf places (Binary.ofFloat x))] at hb
  obtain ⟨y, hy, hfinite, hparts⟩ :=
    value?_decimal (Binary.ofFloat x).negative places (isDigit_digitChars _) hb he
  refine ⟨y, hy, hfinite, fixed_eq_of_parts (by rw [hparts]) ?_⟩
  rw [← hunits, hparts]
  rfl

/-! ## Counts -/

def plainNumeral (x : Float) : Numeral :=
  let b := Binary.ofFloat x
  let d := Digits.ofBinary .up b
  if 0 ≤ d.power then
    decimal b.negative 0
      (digitChars d.digits ++ List.replicate (if d.digits = 0 then 0 else d.power.toNat) '0')
  else decimal b.negative (-d.power).toNat (digitChars d.digits)

def countNumeral (x : Float) : Numeral :=
  if (Binary.ofFloat x).isWhole && x.abs < 1e15 then fixedNumeral 0 x else plainNumeral x

theorem isDigit_digitChars_append (n k : ℕ) :
    ∀ c ∈ digitChars n ++ List.replicate k '0', c.isDigit = true := by
  rw [List.forall_mem_append]
  refine ⟨isDigit_digitChars n, fun c hc => ?_⟩
  rw [(List.mem_replicate.mp hc).2]
  rfl

theorem text_plainNumeral (x : Float) : (plainNumeral x).text = plain x := by
  unfold plainNumeral plain Digits.positional
  dsimp only
  split
  · rw [text_decimal _ _ (by simp [digitChars_ne_nil])]
    rfl
  · exact text_decimal _ _ (digitChars_ne_nil _)

theorem proper_plainNumeral (x : Float) : (plainNumeral x).Proper := by
  unfold plainNumeral
  dsimp only
  split
  · exact proper_decimal _ _ (isDigit_digitChars_append _ _)
  · exact proper_decimal _ _ (isDigit_digitChars _)

theorem text_countNumeral (x : Float) : (countNumeral x).text = count x := by
  unfold countNumeral count
  split
  · exact text_fixedNumeral 0 x
  · exact text_plainNumeral x

theorem proper_countNumeral (x : Float) : (countNumeral x).Proper := by
  unfold countNumeral
  split
  · exact proper_fixedNumeral 0 x
  · exact proper_plainNumeral x

theorem ofDigitChars_append_zeros (cs : List Char) (k : ℕ) :
    Nat.ofDigitChars 10 (cs ++ List.replicate k '0') 0 = Nat.ofDigitChars 10 cs 0 * 10 ^ k := by
  have hzeros : Nat.ofDigitChars 10 (List.replicate k '0') 0 = 0 := by
    rw [← List.append_nil (List.replicate k '0'), ofDigitChars_padded]
    rfl
  rw [Nat.ofDigitChars_append, Nat.ofDigitChars_eq_ofDigitChars_zero, hzeros, List.length_replicate,
    Nat.add_zero, Nat.mul_comm]

theorem eq_of_parts {x y : Float} (hx : x.isFinite = true) (hy : y.isFinite = true)
    (h : Binary.ofFloat y = { (Binary.ofFloat x).unsigned with
      negative := (Binary.ofFloat x).negative }) : y = x :=
  eq_of_ofFloat_eq hy hx h

/-- What is written in as few digits as read back does read back. -/
theorem value?_plainNumeral {x : Float} (hx : x.isFinite = true) :
    (plainNumeral x).value? = some x := by
  have hrounds := ofBinary_rounds .up (canonical_ofFloat x)
  have hexponent : (Binary.ofFloat x).unsigned.exponent ≤ 971 := (isFinite_iff x).mp hx
  unfold plainNumeral Digits.value at *
  dsimp only
  generalize Digits.ofBinary .up (Binary.ofFloat x) = d at hrounds
  split
  · rename_i hpower
    set zeros := if d.digits = 0 then 0 else d.power.toNat with hzeros
    have hvalue : (d.digits : ℚ) * 10 ^ d.power
        = (Nat.ofDigitChars 10 (digitChars d.digits ++ List.replicate zeros '0') 0 : ℕ)
          * 10 ^ (-(0 : ℕ) : ℤ) := by
      rw [ofDigitChars_append_zeros, ofDigitChars_digitChars, Nat.cast_zero, neg_zero, zpow_zero,
        mul_one, hzeros]
      split
      · rename_i hzero
        rw [hzero, Nat.cast_zero, zero_mul, zero_mul, Nat.cast_zero]
      · rw [Nat.cast_mul, Nat.cast_pow, Nat.cast_ofNat, ← zpow_natCast, Int.toNat_of_nonneg hpower]
    rw [hvalue] at hrounds
    obtain ⟨y, hy, hfinite, hparts⟩ := value?_decimal (Binary.ofFloat x).negative 0
      (isDigit_digitChars_append _ _) hrounds hexponent
    rw [hy, eq_of_parts hx hfinite hparts]
  · rename_i hpower
    have hplaces : ((-d.power).toNat : ℤ) = -d.power := by omega
    rw [← neg_neg d.power, ← hplaces, ← ofDigitChars_digitChars d.digits] at hrounds
    obtain ⟨y, hy, hfinite, hparts⟩ :=
      value?_decimal (Binary.ofFloat x).negative _ (isDigit_digitChars _) hrounds hexponent
    rw [hy, eq_of_parts hx hfinite hparts]

theorem unitsOf_of_isWhole {b : Binary} (h : b.isWhole = true) : (unitsOf 0 b : ℚ) = b.size := by
  have hd : 0 < b.denominator := by simp [Binary.denominator]
  have hsize : b.size = (b.numerator / b.denominator : ℕ) := by
    have hrest : b.numerator % b.denominator = 0 := by simpa [Binary.isWhole] using h
    rw [← numerator_div_denominator, natCast_div_natCast _ hd, hrest]
    simp
  have hrounded := isRounded_unitsOf 0 b
  rw [pow_zero, mul_one, hsize] at hrounded
  rw [hrounded.unique (isRounded_natCast _), hsize]

/-- A count is read as the double that it was written for. -/
theorem value?_countNumeral {x : Float} (hx : x.isFinite = true) :
    (countNumeral x).value? = some x := by
  unfold countNumeral
  split
  · rename_i hwhole
    rw [Bool.and_eq_true] at hwhole
    have hrounds := (canonical_ofFloat x).rounds
    have hexponent : (Binary.ofFloat x).unsigned.exponent ≤ 971 := (isFinite_iff x).mp hx
    have hvalue : (Binary.ofFloat x).size
        = (Nat.ofDigitChars 10 (digitChars (unitsOf 0 (Binary.ofFloat x))) 0 : ℕ)
          * 10 ^ (-(0 : ℕ) : ℤ) := by
      rw [ofDigitChars_digitChars, unitsOf_of_isWhole hwhole.1]
      simp
    rw [hvalue] at hrounds
    obtain ⟨y, hy, hfinite, hparts⟩ := value?_decimal (Binary.ofFloat x).negative 0
      (isDigit_digitChars _) hrounds hexponent
    have hyx := eq_of_parts hx hfinite hparts
    rw [fixedNumeral, hy, hyx]
  · exact value?_plainNumeral hx

end QueryReview.Decimal
