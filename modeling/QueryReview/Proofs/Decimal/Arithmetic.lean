-- The double that digits with a power of ten are read as: their value, rounded. Lean's floats keep
-- of a number its binary digits and what is known of the rest, and round that; a product and a
-- quotient are worked out far enough for the rest not to matter.
import QueryReview.Decimal.Numeral
import QueryReview.Proofs.Decimal.Double

namespace QueryReview.Decimal

open Float.Model (UnpackedFloat totalExponent)
open Float.Model.UnpackedFloat

/-! ## Digits and what is known of the rest -/

/-- The number that a mantissa with its two further bits stands for, as far as rounding can tell:
the first bit is for a half, the second one for anything less. -/
inductive Stands : ExtendedMantissa → ℚ → Prop
  | whole (m : ℕ) : Stands ⟨m, false, false⟩ m
  | less {m : ℕ} {x : ℚ} (hl : m < x) (hr : x < m + 1 / 2) : Stands ⟨m, false, true⟩ x
  | half (m : ℕ) : Stands ⟨m, true, false⟩ (m + 1 / 2)
  | more {m : ℕ} {x : ℚ} (hl : m + 1 / 2 < x) (hr : x < m + 1) : Stands ⟨m, true, true⟩ x

theorem Stands.bounds {em : ExtendedMantissa} {x : ℚ} (h : Stands em x) :
    em.mantissa ≤ x ∧ x < em.mantissa + 1 := by
  cases h with
  | whole m => exact ⟨le_rfl, lt_add_one _⟩
  | less hl hr => exact ⟨hl.le, by linarith⟩
  | half m => constructor <;> linarith
  | more hl hr => exact ⟨by linarith, hr⟩

theorem shiftRightOne_double (k : ℕ) (half less : Bool) :
    ExtendedMantissa.shiftRightOne ⟨2 * k, half, less⟩ = ⟨k, false, half || less⟩ := by
  simp [ExtendedMantissa.shiftRightOne]

theorem shiftRightOne_double_add_one (k : ℕ) (half less : Bool) :
    ExtendedMantissa.shiftRightOne ⟨2 * k + 1, half, less⟩ = ⟨k, true, half || less⟩ := by
  simp [ExtendedMantissa.shiftRightOne]
  omega

theorem Stands.shiftRightOne {em : ExtendedMantissa} {x : ℚ} (h : Stands em x) :
    Stands em.shiftRightOne (x / 2) := by
  obtain ⟨k, hk⟩ := Nat.even_or_odd' em.mantissa
  cases h with
  | whole m =>
    rcases hk with rfl | rfl
    · rw [shiftRightOne_double]
      push_cast
      rw [mul_div_cancel_left₀ _ two_ne_zero]
      exact .whole k
    · rw [shiftRightOne_double_add_one]
      push_cast
      rw [add_div, mul_div_cancel_left₀ _ two_ne_zero]
      exact .half k
  | less hl hr =>
    rcases hk with rfl | rfl
    · rw [shiftRightOne_double]
      push_cast at hl hr
      exact .less (by linarith) (by linarith)
    · rw [shiftRightOne_double_add_one]
      push_cast at hl hr
      exact .more (by linarith) (by linarith)
  | half m =>
    rcases hk with rfl | rfl
    · rw [shiftRightOne_double]
      push_cast
      exact .less (by linarith) (by linarith)
    · rw [shiftRightOne_double_add_one]
      push_cast
      exact .more (by linarith) (by linarith)
  | more hl hr =>
    rcases hk with rfl | rfl
    · rw [shiftRightOne_double]
      push_cast at hl hr
      exact .less (by linarith) (by linarith)
    · rw [shiftRightOne_double_add_one]
      push_cast at hl hr
      exact .more (by linarith) (by linarith)

theorem Stands.shift {em : ExtendedMantissa} {x : ℚ} (h : Stands em x) (k : ℕ) :
    Stands (em >>> k) (x / 2 ^ k) := by
  change Stands (Nat.repeat ExtendedMantissa.shiftRightOne k em) _
  induction k with
  | zero => simpa [Nat.repeat] using h
  | succ k ih =>
    rw [pow_succ, ← div_div]
    exact ih.shiftRightOne

theorem Stands.isRounded {em : ExtendedMantissa} {x : ℚ} (h : Stands em x) :
    IsRounded x em.roundedMantissa := by
  cases h with
  | whole m => exact isRounded_natCast m
  | @less m _ hl hr =>
    change IsRounded _ m
    apply isRounded_of_lt
    rw [abs_lt]
    constructor <;> linarith
  | half m =>
    change IsRounded _ (m + m % 2)
    rcases Nat.mod_two_eq_zero_or_one m with h | h
    · rw [h, add_zero]
      exact ⟨by norm_num, fun _ => h⟩
    · rw [h]
      refine ⟨?_, fun _ => by omega⟩
      rw [abs_le, Nat.cast_add, Nat.cast_one]
      constructor <;> linarith
  | @more m _ hl hr =>
    change IsRounded _ (m + 1)
    apply isRounded_of_lt
    push_cast
    rw [abs_lt]
    constructor <;> linarith

/-! ## Rounding to the grid -/

theorem targetExponent_eq (m : ℕ) (e : ℤ) :
    Float.Model.Format.binary64.targetExponent (totalExponent m e)
      = max (m.log2 + e - 52) (-1074) := by
  have hbits : (Float.Model.Format.binary64.mantissaBits : ℤ) = 53 := rfl
  have hbottom : Float.Model.Format.binary64.minExponent = -1074 := rfl
  unfold Float.Model.Format.targetExponent totalExponent
  rw [hbits, hbottom]
  congr 1
  omega

theorem log2_lt_of_lt {n k : ℕ} (h : n < 2 ^ (k + 1)) : n.log2 ≤ k := by
  by_cases hn : n = 0
  · simp [hn]
  · exact Nat.lt_succ_iff.mp ((Nat.log2_lt hn).mpr h)

/-- A number of at most 53 binary digits stays as it is, and `2 ^ 53` loses its last digit, which
is zero. -/
theorem shiftToTargetExponent_exact {n : ℕ} {t : ℤ} (hn : n ≤ 2 ^ 53) (ht : -1074 ≤ t) :
    shiftToTargetExponent .binary64 n t .exact
      = (⟨(carried n t).mantissa, false, false⟩, (carried n t).exponent) := by
  unfold shiftToTargetExponent
  dsimp only
  rw [targetExponent_eq]
  unfold carried
  split
  · rename_i h
    have hlog : n.log2 = 53 := by rw [h, Nat.log2_two_pow]
    have htarget : max ((n.log2 : ℤ) + t - 52) (-1074) = t + 1 := by omega
    have hshift : (t + 1 - t).toNat = 1 := by omega
    rw [htarget, shiftToExponent, hshift, h]
    rfl
  · have hlog : n.log2 ≤ 52 := log2_lt_of_lt (by omega)
    have hshift : (max ((n.log2 : ℤ) + t - 52) (-1074) - t).toNat = 0 := by omega
    rw [shiftToExponent, hshift]
    simp only [Nat.cast_zero, add_zero]
    rfl

/-- The target exponent is that of the grid of the number. -/
theorem grid_target {q : ℚ} {m : ℕ} {e : ℤ} (hfine : 52 ≤ m.log2 ∨ e ≤ -1074)
    (hle : m ≤ q / 2 ^ e) (hlt : q / 2 ^ e < m + 1) :
    Grid q (max (m.log2 + e - 52) (-1074)) := by
  have hpos := two_zpow_pos e
  rw [le_div_iff₀ hpos] at hle
  rw [div_lt_iff₀ hpos] at hlt
  have hscale : ∀ k : ℕ, (2 : ℚ) ^ k * 2 ^ e = 2 ^ (k + e) := by
    intro k
    rw [zpow_add₀ two_ne_zero, zpow_natCast]
  refine ⟨le_max_right _ _, ?_, fun hne => ?_⟩
  · have hm : (m : ℚ) + 1 ≤ 2 ^ (m.log2 + 1) := by
      exact_mod_cast Nat.lt_log2_self (n := m)
    have hpow : (2 : ℚ) ^ (((m.log2 + 1 : ℕ) : ℤ) + e)
        ≤ 2 ^ (((53 : ℕ) : ℤ) + max (m.log2 + e - 52) (-1074)) :=
      zpow_le_zpow_right₀ one_le_two (by push_cast; omega)
    calc q < (m + 1) * 2 ^ e := hlt
      _ ≤ 2 ^ (m.log2 + 1) * 2 ^ e := mul_le_mul_of_nonneg_right hm hpos.le
      _ = 2 ^ (((m.log2 + 1 : ℕ) : ℤ) + e) := hscale _
      _ ≤ 2 ^ (((53 : ℕ) : ℤ) + max (m.log2 + e - 52) (-1074)) := hpow
      _ = 2 ^ 53 * 2 ^ (max (m.log2 + e - 52) (-1074)) := by
        rw [zpow_add₀ two_ne_zero, zpow_natCast]
  · have hm0 : m ≠ 0 := by
      rintro rfl
      simp at hfine
      simp at hne
      omega
    have hm : (2 : ℚ) ^ m.log2 ≤ m := by exact_mod_cast Nat.log2_self_le hm0
    have htarget : ((52 : ℕ) : ℤ) + max ((m.log2 : ℤ) + e - 52) (-1074) = m.log2 + e := by omega
    calc (2 : ℚ) ^ 52 * 2 ^ (max ((m.log2 : ℤ) + e - 52) (-1074))
        = 2 ^ (((52 : ℕ) : ℤ) + max ((m.log2 : ℤ) + e - 52) (-1074)) := by
          rw [zpow_add₀ two_ne_zero, zpow_natCast]
      _ = 2 ^ m.log2 * 2 ^ e := by rw [htarget, hscale]
      _ ≤ m * 2 ^ e := mul_le_mul_of_nonneg_right hm hpos.le
      _ ≤ q := hle

/-- What the mantissa and its accuracy stand for is rounded to the grid of the doubles. -/
theorem roundWithAccuracy_rounds {q : ℚ} {m : ℕ} {e : ℤ} {accuracy : Accuracy}
    (hfine : 52 ≤ m.log2 ∨ e ≤ -1074)
    (hq : Stands (.ofMantissaAndAccuracy m accuracy) (q / 2 ^ e)) :
    ∃ b, Rounds q b ∧ roundWithAccuracy .binary64 .positive m e accuracy = b.unpacked := by
  have hmantissa : (ExtendedMantissa.ofMantissaAndAccuracy m accuracy).mantissa = m := by
    cases accuracy with
    | exact => rfl
    | inexact o => cases o <;> rfl
  obtain ⟨hle, hlt⟩ := hq.bounds
  rw [hmantissa] at hle hlt
  have hgrid := grid_target hfine hle hlt
  set t : ℤ := max (m.log2 + e - 52) (-1074) with ht
  have het : e + ((t - e).toNat : ℤ) = t := by omega
  have hscale : q / 2 ^ e / 2 ^ (t - e).toNat = q / 2 ^ t := by
    rw [div_div, ← zpow_natCast, ← zpow_add₀ two_ne_zero, het]
  have hrounded := (hq.shift (t - e).toNat).isRounded
  rw [hscale] at hrounded
  refine ⟨_, .intro hgrid hrounded, ?_⟩
  have hsecond := shiftToTargetExponent_exact (hgrid.rounded_le hrounded) hgrid.bottom_le
  unfold roundWithAccuracy
  have hfirst : shiftToTargetExponent .binary64 m e accuracy
      = (ExtendedMantissa.ofMantissaAndAccuracy m accuracy >>> (t - e).toNat, t) := by
    rw [shiftToTargetExponent, targetExponent_eq, ← ht, shiftToExponent, het]
  rw [hfirst]
  dsimp only
  rw [hsecond]
  have hsign : (carried (ExtendedMantissa.ofMantissaAndAccuracy m accuracy
      >>> (t - e).toNat).roundedMantissa t).sign = .positive := by
    rw [Binary.sign, Rounds.negative (.intro hgrid hrounded)]
    rfl
  unfold Binary.unpacked
  rw [hsign]

/-! ## Products and quotients -/

theorem le_log2_of_le {n k : ℕ} (h : 2 ^ k ≤ n) : k ≤ n.log2 := by
  have := Nat.two_pow_pos k
  exact (Nat.le_log2 (by omega)).mpr h

theorem unpacked_of_pos {b : Binary} (hs : b.negative = false) (hm : b.mantissa ≠ 0) :
    b.unpacked = .finite .positive b.mantissa b.exponent (Nat.pos_of_ne_zero hm) := by
  unfold Binary.unpacked Binary.sign
  rw [dif_neg hm, hs]
  rfl

theorem mul_rounds {b c : Binary} (hb : b.negative = false) (hc : c.negative = false)
    (hm : 2 ^ 52 ≤ b.mantissa * c.mantissa) :
    ∃ d, Rounds (b.size * c.size) d ∧
      UnpackedFloat.mul .binary64 b.unpacked c.unpacked = d.unpacked := by
  have hb0 : b.mantissa ≠ 0 := by
    intro h
    simp [h] at hm
  have hc0 : c.mantissa ≠ 0 := by
    intro h
    simp [h] at hm
  have hstands : Stands (.ofMantissaAndAccuracy (b.mantissa * c.mantissa) .exact)
      (b.size * c.size / 2 ^ (b.exponent + c.exponent)) := by
    have hvalue : b.size * c.size / 2 ^ (b.exponent + c.exponent)
        = ((b.mantissa * c.mantissa : ℕ) : ℚ) := by
      rw [div_eq_iff (two_zpow_pos _).ne', zpow_add₀ two_ne_zero, Binary.size, Binary.size]
      push_cast
      ring
    rw [hvalue]
    exact .whole _
  obtain ⟨d, hd, heq⟩ := roundWithAccuracy_rounds (.inl (le_log2_of_le hm)) hstands
  refine ⟨d, hd, ?_⟩
  rw [unpacked_of_pos hb hb0, unpacked_of_pos hc hc0, ← heq]
  rfl

theorem stands_quotient (a : ℕ) {d : ℕ} (hd : 0 < d) :
    Stands (.ofMantissaAndAccuracy (a / d) (accuracyOfFraction (a % d) d)) ((a : ℚ) / d) := by
  have hdq : (0 : ℚ) < d := by exact_mod_cast hd
  have hrest := Nat.mod_lt a hd
  rw [natCast_div_natCast a hd]
  generalize a / d = below
  generalize a % d = rest at hrest
  obtain ⟨hbelow, hmiddle, habove⟩ := rest_div_half rest hd
  unfold accuracyOfFraction
  split
  · rename_i h
    rw [h, Nat.cast_zero, zero_div, add_zero]
    exact .whole below
  · rename_i hne
    have hpos : (0 : ℚ) < rest / d := div_pos (by exact_mod_cast Nat.pos_of_ne_zero hne) hdq
    rcases lt_trichotomy (2 * rest) d with h | h | h
    · rw [Nat.compare_eq_lt.mpr h]
      exact .less (by linarith) (by linarith [hbelow h])
    · rw [Nat.compare_eq_eq.mpr h, hmiddle h]
      exact .half below
    · rw [Nat.compare_eq_gt.mpr h]
      exact .more (by linarith [habove h]) (by linarith [rest_div_lt_one hrest])

theorem divCore_eq (m k : ℕ) (e f : ℤ) : ∃ u : ℤ, u ≤ e - f ∧
    (u ≤ -1074 ∨ u ≤ m.log2 + e - (k.log2 + f) - 53) ∧
      divCore .binary64 m e k f = (m * 2 ^ (e - f - u).toNat / k, u,
        accuracyOfFraction (m * 2 ^ (e - f - u).toNat % k) k) := by
  have hbits : (Float.Model.Format.binary64.mantissaBits : ℤ) = 53 := rfl
  have hbottom : Float.Model.Format.binary64.minExponent = -1074 := rfl
  refine ⟨_, min_le_left _ _, ?_, by rw [divCore, Nat.shiftLeft_eq]⟩
  simp only [Float.Model.Format.targetExponent, totalExponent, hbits, hbottom]
  omega

theorem div_rounds {b c : Binary} (hb : b.negative = false) (hc : c.negative = false)
    (hb0 : b.mantissa ≠ 0) (hc0 : c.mantissa ≠ 0) :
    ∃ d, Rounds (b.size / c.size) d ∧
      UnpackedFloat.div .binary64 b.unpacked c.unpacked = d.unpacked := by
  obtain ⟨u, hu, hfine, hcore⟩ := divCore_eq b.mantissa c.mantissa b.exponent c.exponent
  set shift := (b.exponent - c.exponent - u).toNat with hshift
  have hcpos := Nat.pos_of_ne_zero hc0
  have hvalue : b.size / c.size / 2 ^ u
      = ((b.mantissa * 2 ^ shift : ℕ) : ℚ) / c.mantissa := by
    have hexp : b.exponent = shift + u + c.exponent := by omega
    have hpow : (2 : ℚ) ^ b.exponent = 2 ^ shift * 2 ^ u * 2 ^ c.exponent := by
      rw [hexp, zpow_add₀ two_ne_zero, zpow_add₀ two_ne_zero, zpow_natCast]
    have hcq : (c.mantissa : ℚ) ≠ 0 := by exact_mod_cast hc0
    rw [Binary.size, Binary.size, hpow]
    push_cast
    field_simp [(two_zpow_pos u).ne', (two_zpow_pos c.exponent).ne']
  have hstands := stands_quotient (b.mantissa * 2 ^ shift) hcpos
  rw [← hvalue] at hstands
  have hlarge : 52 ≤ (b.mantissa * 2 ^ shift / c.mantissa).log2 ∨ u ≤ -1074 := by
    rcases hfine with hfine | hfine
    · exact .inr hfine
    · left
      apply le_log2_of_le
      rw [Nat.le_div_iff_mul_le hcpos]
      calc 2 ^ 52 * c.mantissa ≤ 2 ^ 52 * 2 ^ (c.mantissa.log2 + 1) :=
            Nat.mul_le_mul_left _ Nat.lt_log2_self.le
        _ = 2 ^ (52 + (c.mantissa.log2 + 1)) := (pow_add _ _ _).symm
        _ ≤ 2 ^ (b.mantissa.log2 + shift) := Nat.pow_le_pow_right (by decide) (by omega)
        _ = 2 ^ b.mantissa.log2 * 2 ^ shift := pow_add _ _ _
        _ ≤ b.mantissa * 2 ^ shift := Nat.mul_le_mul_right _ (Nat.log2_self_le hb0)
  obtain ⟨d, hd, heq⟩ := roundWithAccuracy_rounds hlarge hstands
  refine ⟨d, hd, ?_⟩
  rw [unpacked_of_pos hb hb0, unpacked_of_pos hc hc0, ← heq]
  unfold UnpackedFloat.div
  dsimp only
  rw [hcore]
  rfl

/-! ## Whole numbers and powers of ten -/

theorem log2_mul_pow {n : ℕ} (hn : n ≠ 0) (k : ℕ) : (n * 2 ^ k).log2 = n.log2 + k := by
  have hpos := Nat.two_pow_pos k
  rw [Nat.log2_eq_iff (by positivity)]
  constructor
  · rw [pow_add]
    exact Nat.mul_le_mul_right _ (Nat.log2_self_le hn)
  · rw [Nat.add_right_comm, pow_add]
    exact Nat.mul_lt_mul_of_pos_right Nat.lt_log2_self hpos

/-- A whole number is moved up until it has 53 digits, and then rounded. -/
theorem ofUInt64_eq {n : ℕ} (hn : n ≠ 0) (hlt : n < 2 ^ 53) :
    UnpackedFloat.ofUInt64 .binary64 n.toUInt64
      = roundWithAccuracy .binary64 .positive (n * 2 ^ (52 - n.log2)) (-(52 - n.log2 : ℕ)) .exact := by
  have hlog : n.log2 ≤ 52 := log2_lt_of_lt hlt
  have hnat : n.toUInt64.toNat = n := Nat.mod_eq_of_lt (by omega)
  have hgt : compare (n : ℤ) 0 = .gt := Int.compare_eq_gt.mpr (by omega)
  have hshift : ((0 : ℤ) - max ((n.log2 : ℤ) + 0 - 52) (-1074)).toNat = 52 - n.log2 := by omega
  unfold UnpackedFloat.ofUInt64 UnpackedFloat.ofNat UnpackedFloat.ofInt UnpackedFloat.normalize
  rw [hnat, hgt]
  dsimp only
  rw [UnpackedFloat.round, Int.toNat_natCast, targetExponent_eq, decreaseExponent, hshift]
  dsimp only
  rw [Nat.shiftLeft_eq, zero_sub]

/-- Such a number has no more than 53 digits, so it is on the grid itself. -/
theorem toFloat_of_lt {n : ℕ} (hn : n ≠ 0) (hlt : n < 2 ^ 53) :
    ∃ b : Binary, b.negative = false ∧ b.mantissa ≠ 0 ∧ b.size = n ∧
      n.toUInt64.toFloat.toModel.unpack = b.unpacked := by
  have hlog : n.log2 ≤ 52 := log2_lt_of_lt hlt
  set k := 52 - n.log2 with hk
  have hm : n * 2 ^ k ≠ 0 := Nat.mul_ne_zero hn (Nat.two_pow_pos k).ne'
  have hmoved : (n * 2 ^ k).log2 = 52 := by
    rw [log2_mul_pow hn]
    omega
  have hcanonical : (Binary.mk false (n * 2 ^ k) (-k)).Canonical := by
    refine ⟨?_, ?_, fun _ => ?_⟩
    · exact Nat.lt_of_lt_of_eq Nat.lt_log2_self (by rw [hmoved])
    · dsimp only
      omega
    · have := Nat.log2_self_le hm
      rwa [hmoved] at this
  have hsize : (Binary.mk false (n * 2 ^ k) (-k)).size = n := by
    rw [Binary.size, zpow_neg, zpow_natCast]
    push_cast
    exact mul_inv_cancel_right₀ (by positivity) _
  have hstands : Stands (.ofMantissaAndAccuracy (n * 2 ^ k) .exact) ((n : ℚ) / 2 ^ (-k : ℤ)) := by
    rw [← hsize, Binary.size, mul_div_cancel_right₀ _ (two_zpow_pos _).ne']
    exact .whole _
  obtain ⟨b, hb, heq⟩ := roundWithAccuracy_rounds (.inl hmoved.ge) hstands
  rw [← hsize] at hb
  have hexact : b = ⟨false, n * 2 ^ k, -k⟩ := hb.unique hcanonical.rounds
  refine ⟨⟨false, n * 2 ^ k, -k⟩, rfl, hm, hsize, ?_⟩
  rw [← unpack_toDouble hcanonical (by dsimp only; omega), Binary.toDouble, ← hexact, ← heq,
    ← ofUInt64_eq hn hlt]
  rfl

theorem powers_of_ten : ∀ k, (hk : k < Float.exactlyRepresentablePowersOfTen.size) →
    let b := Binary.ofFloat Float.exactlyRepresentablePowersOfTen[k]
    b.negative = false ∧ b.numerator = 10 ^ k * b.denominator ∧ 2 ^ 52 ≤ b.mantissa ∧
      b.exponent ≤ 971 := by
  decide +kernel

/-! ## Digits with a power of ten -/

theorem mul_toDouble {x y : Float} {b c : Binary} (hx : x.toModel.unpack = b.unpacked)
    (hy : y.toModel.unpack = c.unpacked) (hb : b.negative = false) (hc : c.negative = false)
    (hm : 2 ^ 52 ≤ b.mantissa * c.mantissa) :
    ∃ d, Rounds (b.size * c.size) d ∧ x * y = d.toDouble := by
  obtain ⟨d, hd, heq⟩ := mul_rounds hb hc hm
  refine ⟨d, hd, ?_⟩
  rw [Binary.toDouble, ← heq, ← hx, ← hy]
  rfl

theorem div_toDouble {x y : Float} {b c : Binary} (hx : x.toModel.unpack = b.unpacked)
    (hy : y.toModel.unpack = c.unpacked) (hb : b.negative = false) (hc : c.negative = false)
    (hb0 : b.mantissa ≠ 0) (hc0 : c.mantissa ≠ 0) :
    ∃ d, Rounds (b.size / c.size) d ∧ x / y = d.toDouble := by
  obtain ⟨d, hd, heq⟩ := div_rounds hb hc hb0 hc0
  refine ⟨d, hd, ?_⟩
  rw [Binary.toDouble, ← heq, ← hx, ← hy]
  rfl

/-- The powers of ten up to the 22nd are doubles. -/
theorem power_of_ten {k : ℕ} (hk : k < Float.exactlyRepresentablePowersOfTen.size) :
    ∃ b : Binary, b.negative = false ∧ 2 ^ 52 ≤ b.mantissa ∧ b.size = 10 ^ k ∧
      Float.exactlyRepresentablePowersOfTen[k].toModel.unpack = b.unpacked := by
  obtain ⟨hs, hvalue, hm, he⟩ := powers_of_ten k hk
  have hfinite := (isFinite_iff _).mpr he
  refine ⟨_, hs, hm, ?_, unpack_of_isFinite hfinite⟩
  rw [← numerator_div_denominator, hvalue]
  have hden : (Binary.ofFloat Float.exactlyRepresentablePowersOfTen[k]).denominator ≠ 0 := by
    simp [Binary.denominator]
  push_cast
  rw [mul_div_cancel_right₀]
  exact_mod_cast hden

theorem size_natCast (m : ℕ) : (Binary.mk false m 0).size = m := by
  simp [Binary.size]

/-- The product or the quotient of the digits and a power of ten is rounded. -/
theorem ofScientific_rounds {m : ℕ} {e : ℤ} (hm : m ≠ 0) (hlow : -2048 ≤ m.log2 + e)
    (hhigh : e ≤ 2048) :
    ∃ d, Rounds (m * 10 ^ e) d ∧
      UnpackedFloat.ofScientific .binary64 m e = d.unpacked := by
  have hten : ∀ k : ℕ, (10 : ℕ) ^ k ≠ 0 := fun k => by positivity
  unfold UnpackedFloat.ofScientific
  rw [dif_neg hm, if_neg (by simp; omega), if_neg (by simp; omega)]
  split
  · rename_i he
    have hsize : (Binary.mk false (m * 2 ^ 53) (-53)).size = m := by
      rw [Binary.size]
      push_cast
      rw [mul_assoc, zpow_neg]
      norm_num
    have hlarge : 2 ^ 52 ≤ m * 2 ^ 53 * 10 ^ e.toNat := by
      have hm1 := Nat.pos_of_ne_zero hm
      have hten1 := Nat.pos_of_ne_zero (hten e.toNat)
      calc 2 ^ 52 ≤ 1 * 2 ^ 53 * 1 := by norm_num
        _ ≤ m * 2 ^ 53 * 10 ^ e.toNat := Nat.mul_le_mul (Nat.mul_le_mul_right _ hm1) hten1
    obtain ⟨d, hd, heq⟩ := mul_rounds (b := ⟨false, m * 2 ^ 53, -53⟩)
      (c := ⟨false, 10 ^ e.toNat, 0⟩) rfl rfl hlarge
    refine ⟨d, ?_, ?_⟩
    · rw [hsize, size_natCast, Nat.cast_pow, ← zpow_natCast, Int.toNat_of_nonneg he] at hd
      exact hd
    · rw [← heq, unpacked_of_pos rfl (by positivity), unpacked_of_pos rfl (hten _)]
      simp only [Nat.shiftLeft_eq]
      rfl
  · rename_i he
    obtain ⟨d, hd, heq⟩ := div_rounds (b := ⟨false, m, 0⟩) (c := ⟨false, 10 ^ (-e).toNat, 0⟩)
      rfl rfl hm (hten _)
    refine ⟨d, ?_, ?_⟩
    · rw [size_natCast, size_natCast, Nat.cast_pow, ← zpow_natCast,
        Int.toNat_of_nonneg (by omega), zpow_neg, div_inv_eq_mul] at hd
      exact hd
    · rw [← heq, unpacked_of_pos rfl hm, unpacked_of_pos rfl (hten _)]

/-- Digits with a power of ten are read as the double that their value is rounded to. -/
theorem float_ofScientific_rounds {m : ℕ} {e : ℤ} (hm : m ≠ 0) (hlow : -2048 ≤ m.log2 + e)
    (hhigh : e ≤ 2048) :
    ∃ d, Rounds (m * 10 ^ e) d ∧
      Float.ofScientific m (decide (e < 0)) e.natAbs = d.toDouble := by
  unfold Float.ofScientific
  split
  · rename_i hfast
    obtain ⟨b, hb, hb0, hbsize, hbunpack⟩ := toFloat_of_lt hm hfast.1
    obtain ⟨c, hc, hcm, hcsize, hcunpack⟩ := power_of_ten (k := e.natAbs) (by
      have : Float.exactlyRepresentablePowersOfTen.size = 23 := rfl
      omega)
    dsimp only
    split
    · rename_i he
      have he := of_decide_eq_true he
      obtain ⟨d, hd, heq⟩ := div_toDouble hbunpack hcunpack hb hc hb0 (by omega)
      refine ⟨d, ?_, heq⟩
      have hexp : (e.natAbs : ℤ) = -e := by omega
      rw [hbsize, hcsize, ← zpow_natCast, hexp, zpow_neg, div_inv_eq_mul] at hd
      exact hd
    · rename_i he
      have he : ¬ e < 0 := by simpa using he
      have hlarge : 2 ^ 52 ≤ b.mantissa * c.mantissa :=
        hcm.trans (Nat.le_mul_of_pos_left _ (Nat.pos_of_ne_zero hb0))
      obtain ⟨d, hd, heq⟩ := mul_toDouble hbunpack hcunpack hb hc hlarge
      refine ⟨d, ?_, heq⟩
      have hexp : (e.natAbs : ℤ) = e := by omega
      rw [hbsize, hcsize, ← zpow_natCast, hexp] at hd
      exact hd
  · obtain ⟨d, hd, heq⟩ := ofScientific_rounds hm hlow hhigh
    refine ⟨d, hd, ?_⟩
    have hexp : (if decide (e < 0) = true then Int.negOfNat e.natAbs else Int.ofNat e.natAbs) = e := by
      split
      · rename_i he
        have he := of_decide_eq_true he
        rw [Int.negOfNat_eq]
        change -(e.natAbs : ℤ) = e
        omega
      · rename_i he
        have he : ¬ e < 0 := by simpa using he
        exact Int.natAbs_of_nonneg (not_lt.mp he)
    dsimp only
    rw [hexp, Binary.toDouble, ← heq]
    rfl

end QueryReview.Decimal
