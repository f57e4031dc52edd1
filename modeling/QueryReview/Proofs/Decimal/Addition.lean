-- Sums of doubles. Lean's floats work a sum out exactly and then round it, so a sum that is a double
-- is kept as it is. Doubles that are whole multiples of one power of two, and together not too many
-- of it, may be added in any order: no sum on the way is rounded.
import QueryReview.Proofs.Decimal.Arithmetic

namespace QueryReview.Decimal

open Float.Model (UnpackedFloat totalExponent)
open Float.Model.UnpackedFloat

/-! ## Rounding with a sign -/

/-- The number with its sign. -/
def Binary.value (b : Binary) : ℚ := if b.negative then -b.size else b.size

theorem size_nonneg (b : Binary) : 0 ≤ b.size :=
  mul_nonneg (Nat.cast_nonneg _) (two_zpow_pos _).le

theorem size_eq_zero_iff (b : Binary) : b.size = 0 ↔ b.mantissa = 0 := by
  rw [Binary.size, mul_eq_zero, or_iff_left (two_zpow_pos _).ne', Nat.cast_eq_zero]

theorem value_eq_zero_iff (b : Binary) : b.value = 0 ↔ b.mantissa = 0 := by
  rw [← size_eq_zero_iff, Binary.value]
  split
  · exact neg_eq_zero
  · exact Iff.rfl

theorem abs_value (b : Binary) : |b.value| = b.size := by
  unfold Binary.value
  split
  · rw [abs_neg, abs_of_nonneg (size_nonneg b)]
  · rw [abs_of_nonneg (size_nonneg b)]

theorem round_negative (m : ℕ) (e : ℤ) :
    UnpackedFloat.round .binary64 .negative m e
      = (UnpackedFloat.round .binary64 .positive m e).neg := by
  unfold UnpackedFloat.round roundWithAccuracy
  dsimp only
  split <;> rfl

/-- A mantissa is moved up until it has 53 digits or is on the last grid, and then rounded. -/
theorem round_rounds {m : ℕ} (hm : m ≠ 0) (e : ℤ) :
    ∃ b, Rounds (m * 2 ^ e) b ∧ UnpackedFloat.round .binary64 .positive m e = b.unpacked := by
  set t : ℤ := max (m.log2 + e - 52) (-1074) with ht
  set k : ℕ := (e - t).toNat with hk
  have hfine : 52 ≤ (m * 2 ^ k).log2 ∨ e - k ≤ -1074 := by
    rw [log2_mul_pow hm]
    omega
  have hstands : Stands (.ofMantissaAndAccuracy (m * 2 ^ k) .exact) (m * 2 ^ e / 2 ^ (e - k)) := by
    have hvalue : (m : ℚ) * 2 ^ e / 2 ^ (e - k) = ((m * 2 ^ k : ℕ) : ℚ) := by
      rw [mul_div_assoc, ← zpow_sub₀ two_ne_zero, sub_sub_cancel, zpow_natCast]
      push_cast
      rfl
    rw [hvalue]
    exact .whole _
  obtain ⟨b, hb, heq⟩ := roundWithAccuracy_rounds hfine hstands
  refine ⟨b, hb, ?_⟩
  rw [← heq, UnpackedFloat.round, targetExponent_eq, ← ht, decreaseExponent]
  dsimp only
  rw [Nat.shiftLeft_eq]

theorem abs_mul_two_zpow (n e : ℤ) : |(n : ℚ)| * 2 ^ e = |(n : ℚ) * 2 ^ e| := by
  rw [abs_mul, abs_of_pos (two_zpow_pos e)]

/-- The sign is kept, and the size is rounded. -/
theorem normalize_rounds {n : ℤ} (hn : n ≠ 0) (e : ℤ) :
    ∃ b : Binary, b.negative = decide (n < 0) ∧ Rounds (|(n : ℚ)| * 2 ^ e) b.unsigned ∧
      UnpackedFloat.normalize .binary64 n e .positive = b.unpacked := by
  have hcast : ((n.natAbs : ℕ) : ℚ) = |(n : ℚ)| := by
    rw [← Int.cast_abs, ← Int.natCast_natAbs, Int.cast_natCast]
  obtain ⟨b, hb, heq⟩ := round_rounds (Int.natAbs_ne_zero.mpr hn) e
  have hunsigned : b.unsigned = b := by
    rw [Binary.unsigned, ← hb.negative]
  rw [hcast] at hb
  unfold UnpackedFloat.normalize
  rcases lt_or_gt_of_ne hn with hneg | hgt
  · refine ⟨b.opposite, ?_, ?_, ?_⟩
    · rw [Binary.opposite, hb.negative, decide_eq_true hneg, Bool.not_false]
    · have hback : b.opposite.unsigned = b := hunsigned
      rwa [hback]
    · have hnat : (-n).toNat = n.natAbs := by omega
      rw [Int.compare_eq_lt.mpr hneg]
      dsimp only
      rw [round_negative, hnat, heq, unpacked_neg]
  · refine ⟨b, ?_, by rwa [hunsigned], ?_⟩
    · rw [hb.negative, decide_eq_false (by omega)]
    · have hnat : n.toNat = n.natAbs := by omega
      rw [Int.compare_eq_gt.mpr hgt]
      dsimp only
      rw [hnat, heq]

/-- A number that a double has is not changed. -/
theorem normalize_eq {n e : ℤ} {d : Binary} (hd : d.Canonical) (hn : n ≠ 0)
    (hvalue : n * 2 ^ e = d.value) :
    UnpackedFloat.normalize .binary64 n e .positive = d.unpacked := by
  have hpos := two_zpow_pos e
  obtain ⟨b, hsign, hb, heq⟩ := normalize_rounds hn e
  have hsize : |(n : ℚ)| * 2 ^ e = d.size := by rw [abs_mul_two_zpow, hvalue, abs_value]
  rw [hsize] at hb
  have hnegative : d.negative = decide (n < 0) := by
    unfold Binary.value at hvalue
    rcases lt_or_gt_of_ne hn with hlt | hgt
    · have hneg : (n : ℚ) * 2 ^ e < 0 := mul_neg_of_neg_of_pos (by exact_mod_cast hlt) hpos
      rw [decide_eq_true hlt]
      by_contra h
      rw [if_neg h] at hvalue
      linarith [size_nonneg d]
    · have hmore : 0 < (n : ℚ) * 2 ^ e := mul_pos (by exact_mod_cast hgt) hpos
      rw [decide_eq_false (by omega), ← Bool.not_eq_true]
      intro h
      rw [if_pos h] at hvalue
      linarith [size_nonneg d]
  have hsame : b.unsigned = d.unsigned := hb.unique hd.rounds
  have hbd : b = d := by
    obtain ⟨_, _, _⟩ := b
    obtain ⟨_, _, _⟩ := d
    cases hsign.trans hnegative.symm
    cases hsame
    rfl
  rw [heq, hbd]

/-! ## Exact sums -/

/-- The number in units of `2 ^ e`, which is not above its exponent. -/
def Binary.units (b : Binary) (e : ℤ) : ℤ :=
  b.sign.apply (b.mantissa <<< (b.exponent - e).toNat : ℕ)

theorem units_mul {b : Binary} {e : ℤ} (he : e ≤ b.exponent) : b.units e * 2 ^ e = b.value := by
  have hshift : ((b.mantissa <<< (b.exponent - e).toNat : ℕ) : ℚ) * 2 ^ e = b.size := by
    have hexp : ((b.exponent - e).toNat : ℤ) + e = b.exponent := by omega
    rw [Nat.shiftLeft_eq, Nat.cast_mul, Nat.cast_pow, Nat.cast_ofNat, ← zpow_natCast, mul_assoc,
      ← zpow_add₀ two_ne_zero, hexp, Binary.size]
  have hopposite : ((-((b.mantissa <<< (b.exponent - e).toNat : ℕ) : ℤ) : ℤ) : ℚ) * 2 ^ e
      = -b.size := by
    rw [Int.cast_neg, Int.cast_natCast, neg_mul, hshift]
  unfold Binary.units Binary.value Binary.sign
  split
  · exact hopposite
  · exact hshift

/-- The sum of two numbers in units of the smaller exponent. -/
theorem exists_add_eq {b c : Binary} (hb : b.mantissa ≠ 0) (hc : c.mantissa ≠ 0) :
    ∃ n e : ℤ, n * 2 ^ e = b.value + c.value ∧
      UnpackedFloat.add .binary64 b.unpacked c.unpacked
        = UnpackedFloat.normalize .binary64 n e .positive := by
  set e := min b.exponent c.exponent with he
  refine ⟨b.units e + c.units e, e, ?_, ?_⟩
  · rw [Int.cast_add, add_mul, units_mul (min_le_left _ _), units_mul (min_le_right _ _)]
  · unfold Binary.unpacked
    rw [dif_neg hb, dif_neg hc]
    rfl

theorem canonical_zero (negative : Bool) : (Binary.mk negative 0 (-1074)).Canonical :=
  ⟨by norm_num, le_rfl, fun h => absurd rfl h⟩

/-- What the addition of two numbers gives, apart from rounding. -/
inductive Sum (b c : Binary) : UnpackedFloat → Prop
  | zeros : b.mantissa = 0 → c.mantissa = 0 →
      Sum b c (Binary.mk (b.negative && c.negative) 0 (-1074)).unpacked
  | left : c.mantissa = 0 → Sum b c b.unpacked
  | right : b.mantissa = 0 → Sum b c c.unpacked
  | cancelled : b.value + c.value = 0 → Sum b c (Binary.mk false 0 (-1074)).unpacked
  | normalized {n e : ℤ} : n ≠ 0 → n * 2 ^ e = b.value + c.value →
      Sum b c (UnpackedFloat.normalize .binary64 n e .positive)

theorem sum_add (b c : Binary) : Sum b c (UnpackedFloat.add .binary64 b.unpacked c.unpacked) := by
  by_cases hb : b.mantissa = 0
  · by_cases hc : c.mantissa = 0
    · have hzeros : UnpackedFloat.add .binary64 b.unpacked c.unpacked
          = (Binary.mk (b.negative && c.negative) 0 (-1074)).unpacked := by
        unfold Binary.unpacked Binary.sign
        rw [dif_pos hb, dif_pos hc, dif_pos rfl]
        cases b.negative <;> cases c.negative <;> rfl
      rw [hzeros]
      exact .zeros hb hc
    · have hright : UnpackedFloat.add .binary64 b.unpacked c.unpacked = c.unpacked := by
        unfold Binary.unpacked
        rw [dif_pos hb, dif_neg hc]
        rfl
      rw [hright]
      exact .right hb
  · by_cases hc : c.mantissa = 0
    · have hleft : UnpackedFloat.add .binary64 b.unpacked c.unpacked = b.unpacked := by
        unfold Binary.unpacked
        rw [dif_neg hb, dif_pos hc]
        rfl
      rw [hleft]
      exact .left hc
    · obtain ⟨n, e, hvalue, heq⟩ := exists_add_eq hb hc
      rw [heq]
      by_cases hn : n = 0
      · rw [hn, Int.cast_zero, zero_mul] at hvalue
        rw [hn]
        exact .cancelled hvalue.symm
      · exact .normalized hn hvalue

theorem add_eq {x y : Float} (hx : x.isFinite = true) (hy : y.isFinite = true) :
    x + y = .ofModel (.pack (UnpackedFloat.add .binary64 (Binary.ofFloat x).unpacked
      (Binary.ofFloat y).unpacked)) := by
  rw [← unpack_of_isFinite hx, ← unpack_of_isFinite hy]
  rfl

theorem isFinite_toDouble {b : Binary} (hb : b.Canonical) (he : b.exponent ≤ 971) :
    b.toDouble.isFinite = true := by
  rw [isFinite_iff, ofFloat_toDouble hb he]
  exact he

/-- A sum that a double has is what the addition gives, but perhaps for the sign of a zero. -/
theorem add_exact {x y : Float} {d : Binary} (hx : x.isFinite = true) (hy : y.isFinite = true)
    (hd : d.Canonical) (he : d.exponent ≤ 971)
    (hsum : (Binary.ofFloat x).value + (Binary.ofFloat y).value = d.value) :
    (x + y).isFinite = true ∧ (Binary.ofFloat (x + y)).value = d.value := by
  -- It is enough that the parts of the sum are those of some double of this value.
  suffices h : ∃ r : Binary, r.Canonical ∧ r.exponent ≤ 971 ∧ r.value = d.value ∧
      UnpackedFloat.add .binary64 (Binary.ofFloat x).unpacked (Binary.ofFloat y).unpacked
        = r.unpacked by
    obtain ⟨r, hr, hre, hvalue, heq⟩ := h
    rw [add_eq hx hy, heq, ← Binary.toDouble, ofFloat_toDouble hr hre]
    exact ⟨isFinite_toDouble hr hre, hvalue⟩
  have hzero (b : Binary) (h : b.mantissa = 0) : b.value = 0 := (value_eq_zero_iff b).mpr h
  have hadd := sum_add (Binary.ofFloat x) (Binary.ofFloat y)
  generalize UnpackedFloat.add .binary64 (Binary.ofFloat x).unpacked (Binary.ofFloat y).unpacked
    = sum at hadd ⊢
  cases hadd with
  | zeros hb hc =>
    refine ⟨_, canonical_zero _, by simp, ?_, rfl⟩
    rw [← hsum, hzero _ hb, hzero _ hc, add_zero]
    exact hzero _ rfl
  | left hc =>
    refine ⟨_, canonical_ofFloat x, (isFinite_iff x).mp hx, ?_, rfl⟩
    rw [← hsum, hzero _ hc, add_zero]
  | right hb =>
    refine ⟨_, canonical_ofFloat y, (isFinite_iff y).mp hy, ?_, rfl⟩
    rw [← hsum, hzero _ hb, zero_add]
  | cancelled hnone =>
    refine ⟨_, canonical_zero _, by simp, ?_, rfl⟩
    rw [← hsum, hnone]
    exact hzero _ rfl
  | normalized hn hvalue => exact ⟨d, hd, he, rfl, normalize_eq hd hn (hvalue.trans hsum)⟩

/-! ## Numbers that doubles have -/

/-- A whole number of at most 53 digits, in units of a power of two that a double has, is the size
of a double. -/
theorem exists_canonical_size {m : ℕ} {t : ℤ} (hlt : m < 2 ^ 53) (hlow : -1074 ≤ t) :
    ∃ d : Binary, d.Canonical ∧ d.exponent ≤ t ∧ d.size = m * 2 ^ t := by
  by_cases hm : m = 0
  · refine ⟨⟨false, 0, -1074⟩, canonical_zero _, hlow, ?_⟩
    rw [hm, Nat.cast_zero, zero_mul]
    exact (size_eq_zero_iff _).mpr rfl
  · have hlog : m.log2 ≤ 52 := log2_lt_of_lt hlt
    set e : ℤ := max (t - (52 - m.log2 : ℕ)) (-1074) with he
    set k : ℕ := (t - e).toNat with hk
    have hdigits : (m * 2 ^ k).log2 = m.log2 + k := log2_mul_pow hm k
    refine ⟨⟨false, m * 2 ^ k, e⟩, ⟨?_, le_max_right _ _, ?_⟩, ?_, ?_⟩
    · refine Nat.lt_log2_self.trans_le (Nat.pow_le_pow_right two_pos ?_)
      dsimp only
      omega
    · intro hne
      have htop : (m * 2 ^ k).log2 = 52 := by
        dsimp only at hne
        omega
      rw [← htop]
      exact Nat.log2_self_le (Nat.mul_ne_zero hm (Nat.two_pow_pos k).ne')
    · dsimp only
      omega
    · have hexp : (k : ℤ) + e = t := by omega
      rw [Binary.size, Nat.cast_mul, Nat.cast_pow, Nat.cast_ofNat, ← zpow_natCast, mul_assoc,
        ← zpow_add₀ two_ne_zero, hexp]

theorem exists_canonical {n t : ℤ} (hn : n.natAbs < 2 ^ 53) (hlow : -1074 ≤ t) :
    ∃ d : Binary, d.Canonical ∧ d.exponent ≤ t ∧ d.value = n * 2 ^ t := by
  obtain ⟨d, hd, he, hsize⟩ := exists_canonical_size hn hlow
  have hcast : ((n.natAbs : ℕ) : ℚ) = |(n : ℚ)| := by
    rw [← Int.cast_abs, ← Int.natCast_natAbs, Int.cast_natCast]
  rw [hcast] at hsize
  rcases lt_or_ge n 0 with hneg | hpos
  · have hneg : (n : ℚ) < 0 := by exact_mod_cast hneg
    rw [abs_of_neg hneg, neg_mul] at hsize
    refine ⟨{ d with negative := true }, ⟨hd.mantissa_lt, hd.bottom_le, hd.full⟩, he, ?_⟩
    exact neg_eq_iff_eq_neg.mpr hsize
  · have hpos : (0 : ℚ) ≤ n := by exact_mod_cast hpos
    rw [abs_of_nonneg hpos] at hsize
    exact ⟨{ d with negative := false }, ⟨hd.mantissa_lt, hd.bottom_le, hd.full⟩, he, hsize⟩

/-! ## Sums that are not too large -/

/-- What is not above a double is not rounded to more. -/
theorem Rounds.size_le {q : ℚ} {b c : Binary} (h : Rounds q b) (hc : c.Canonical)
    (hle : q ≤ c.size) : b.size ≤ c.size := by
  have hnear := h.nearest hc
  rw [abs_of_nonpos (sub_nonpos.mpr hle)] at hnear
  linarith [(abs_le.mp hnear).1]

/-- So it is for the powers of two. -/
theorem Rounds.size_le_two_pow {q : ℚ} {b : Binary} (h : Rounds q b) {t : ℤ} (hlow : -1074 ≤ t)
    (hle : q ≤ 2 ^ t) : b.size ≤ 2 ^ t := by
  obtain ⟨d, hd, _, hsize⟩ := exists_canonical_size (m := 1) (by norm_num) hlow
  rw [Nat.cast_one, one_mul] at hsize
  rw [← hsize] at hle ⊢
  exact h.size_le hd hle

theorem Rounds.exponent_le {q : ℚ} {b : Binary} (h : Rounds q b) (hle : q ≤ 2 ^ (1023 : ℤ)) :
    b.exponent ≤ 971 := by
  have hsize := h.size_le_two_pow (by norm_num) hle
  have hlt : b.size < 2 ^ 52 * 2 ^ (972 : ℤ) := by
    refine hsize.trans_lt ?_
    rw [← zpow_natCast, ← zpow_add₀ two_ne_zero]
    exact zpow_lt_zpow_right₀ one_lt_two (by norm_num)
  exact Int.lt_add_one_iff.mp (h.canonical.exponent_lt (by norm_num) hlt)

theorem exists_normalize {n : ℤ} (hn : n ≠ 0) {e : ℤ} (hle : |(n : ℚ)| * 2 ^ e ≤ 2 ^ (1023 : ℤ)) :
    ∃ b : Binary, b.Canonical ∧ b.exponent ≤ 971 ∧ Rounds (|(n : ℚ)| * 2 ^ e) b.unsigned ∧
      UnpackedFloat.normalize .binary64 n e .positive = b.unpacked := by
  obtain ⟨b, _, hb, heq⟩ := normalize_rounds hn e
  have hcanonical : b.Canonical :=
    ⟨hb.canonical.mantissa_lt, hb.canonical.bottom_le, hb.canonical.full⟩
  exact ⟨b, hcanonical, hb.exponent_le hle, hb, heq⟩

theorem isFinite_add {x y : Float} (hx : x.isFinite = true) (hy : y.isFinite = true)
    (hle : (Binary.ofFloat x).size + (Binary.ofFloat y).size ≤ 2 ^ (1023 : ℤ)) :
    (x + y).isFinite = true := by
  suffices h : ∃ r : Binary, r.Canonical ∧ r.exponent ≤ 971 ∧
      UnpackedFloat.add .binary64 (Binary.ofFloat x).unpacked (Binary.ofFloat y).unpacked
        = r.unpacked by
    obtain ⟨r, hr, hre, heq⟩ := h
    rw [add_eq hx hy, heq, ← Binary.toDouble]
    exact isFinite_toDouble hr hre
  have hadd := sum_add (Binary.ofFloat x) (Binary.ofFloat y)
  generalize UnpackedFloat.add .binary64 (Binary.ofFloat x).unpacked (Binary.ofFloat y).unpacked
    = sum at hadd ⊢
  cases hadd with
  | zeros _ _ => exact ⟨_, canonical_zero _, by simp, rfl⟩
  | left _ => exact ⟨_, canonical_ofFloat x, (isFinite_iff x).mp hx, rfl⟩
  | right _ => exact ⟨_, canonical_ofFloat y, (isFinite_iff y).mp hy, rfl⟩
  | cancelled _ => exact ⟨_, canonical_zero _, by simp, rfl⟩
  | @normalized n e hn hvalue =>
    have hsize : |(n : ℚ)| * 2 ^ e ≤ 2 ^ (1023 : ℤ) :=
      calc |(n : ℚ)| * 2 ^ e = |(Binary.ofFloat x).value + (Binary.ofFloat y).value| := by
            rw [abs_mul_two_zpow, hvalue]
        _ ≤ |(Binary.ofFloat x).value| + |(Binary.ofFloat y).value| := abs_add_le _ _
        _ = (Binary.ofFloat x).size + (Binary.ofFloat y).size := by rw [abs_value, abs_value]
        _ ≤ 2 ^ (1023 : ℤ) := hle
    obtain ⟨b, hb, hbe, _, heq⟩ := exists_normalize hn hsize
    exact ⟨b, hb, hbe, heq⟩

/-! ## Sums of many -/

/-- Doubles that are whole multiples of `2 ^ t`, and together fewer of it than `2 ^ 53`. -/
structure AddUp (t : ℤ) (xs : List Float) : Prop where
  finite : ∀ x ∈ xs, x.isFinite = true
  multiple : ∀ x ∈ xs, ∃ n : ℤ, (Binary.ofFloat x).value = n * 2 ^ t
  sum_lt : (xs.map fun x => (Binary.ofFloat x).size).sum < 2 ^ 53 * 2 ^ t

/-- The sum of the doubles. -/
def exactSum (xs : List Float) : ℚ := (xs.map fun x => (Binary.ofFloat x).value).sum

theorem natAbs_lt_of_size {n t : ℤ} {q : ℚ} (hq : q = n * 2 ^ t) (hlt : |q| < 2 ^ 53 * 2 ^ t) :
    n.natAbs < 2 ^ 53 := by
  have hpos := two_zpow_pos t
  rw [hq, abs_mul, abs_of_pos hpos, mul_lt_mul_iff_left₀ hpos, ← Int.cast_abs,
    ← Int.natCast_natAbs, Int.cast_natCast] at hlt
  exact_mod_cast hlt

/-- Whatever has been added so far, the next sum is exact too. -/
theorem foldl_add_exact {t : ℤ} {xs : List Float} {acc : Float} (hlow : -1074 ≤ t)
    (htop : t ≤ 971) (h : AddUp t (acc :: xs)) :
    (xs.foldl (· + ·) acc).isFinite = true ∧
      (Binary.ofFloat (xs.foldl (· + ·) acc)).value = exactSum (acc :: xs) := by
  induction xs generalizing acc with
  | nil => exact ⟨h.finite acc (by simp), by simp [exactSum]⟩
  | cons x xs ih =>
    obtain ⟨hfinite, hmultiple, hsum⟩ := h
    obtain ⟨m, hm⟩ := hmultiple acc (by simp)
    obtain ⟨n, hn⟩ := hmultiple x (by simp)
    have hvalue : (Binary.ofFloat acc).value + (Binary.ofFloat x).value = (m + n : ℤ) * 2 ^ t := by
      rw [hm, hn, Int.cast_add, add_mul]
    have hrest : 0 ≤ (xs.map fun x => (Binary.ofFloat x).size).sum :=
      List.sum_nonneg (by simp [size_nonneg])
    have hsize := abs_add_le (Binary.ofFloat acc).value (Binary.ofFloat x).value
    rw [abs_value, abs_value] at hsize
    simp only [List.map_cons, List.sum_cons] at hsum
    obtain ⟨d, hd, hde, hdvalue⟩ :=
      exists_canonical (natAbs_lt_of_size hvalue (by linarith)) hlow
    obtain ⟨hadd, hnext⟩ := add_exact (hfinite acc (by simp)) (hfinite x (by simp)) hd (by omega)
      (hvalue.trans hdvalue.symm)
    rw [hdvalue, ← hvalue] at hnext
    have hlater : AddUp t ((acc + x) :: xs) := by
      refine ⟨List.forall_mem_cons.mpr ⟨hadd, fun y hy => hfinite y (by simp [hy])⟩,
        List.forall_mem_cons.mpr ⟨⟨m + n, ?_⟩, fun y hy => hmultiple y (by simp [hy])⟩, ?_⟩
      · rw [hnext, hvalue]
      · rw [List.map_cons, List.sum_cons, ← abs_value, hnext]
        linarith
    obtain ⟨hdone, htotal⟩ := ih hlater
    refine ⟨hdone, ?_⟩
    rw [List.foldl_cons, htotal]
    simp only [exactSum, List.map_cons, List.sum_cons, hnext]
    ring

theorem AddUp.perm {t : ℤ} {xs ys : List Float} (h : AddUp t xs) (hperm : xs.Perm ys) :
    AddUp t ys := by
  have hsum := (hperm.map fun x => (Binary.ofFloat x).size).sum_eq
  exact ⟨fun x hx => h.finite x (hperm.mem_iff.mpr hx),
    fun x hx => h.multiple x (hperm.mem_iff.mpr hx), hsum ▸ h.sum_lt⟩

theorem exactSum_perm {xs ys : List Float} (h : xs.Perm ys) : exactSum xs = exactSum ys :=
  (h.map _).sum_eq

/-! ## Cut to a whole number -/

/-- The number without its fractional part. -/
def cut (q : ℚ) : ℤ := if q < 0 then ⌈q⌉ else ⌊q⌋

theorem truncate_eq (b : Binary) : b.truncate = cut b.value := by
  have hfloor : ⌊b.size⌋ = ((b.numerator / b.denominator : ℕ) : ℤ) := by
    rw [← numerator_div_denominator, Rat.floor_natCast_div_natCast]
    rfl
  have hsize := size_nonneg b
  unfold Binary.truncate Binary.value cut
  dsimp only
  rw [Int.ofNat_eq_natCast, ← hfloor]
  split
  · rcases hsize.eq_or_lt with h | h
    · simp [← h]
    · rw [if_pos (neg_neg_of_pos h), Int.ceil_neg]
  · rw [if_neg (not_lt.mpr hsize)]

theorem isNaN_of_isFinite {x : Float} (h : x.isFinite = true) : x.isNaN = false := by
  change x.toModel.unpack.isNaN = false
  rw [unpack_of_isFinite h, Binary.unpacked]
  split <;> rfl

theorem truncateToSigned64_eq {x : Float} (h : x.isFinite = true) :
    truncateToSigned64 x
      = clamp (-Int.pow 2 63) (Int.pow 2 63 - 1) (cut (Binary.ofFloat x).value) := by
  rw [truncateToSigned64, isNaN_of_isFinite h, truncate_eq]
  rfl

theorem truncateToSigned64_bounds (x : Float) :
    -Int.pow 2 63 ≤ truncateToSigned64 x ∧ truncateToSigned64 x ≤ Int.pow 2 63 - 1 := by
  have hrange : -Int.pow 2 63 ≤ 0 ∧ 0 ≤ Int.pow 2 63 - 1 := by decide
  unfold truncateToSigned64
  split
  · exact hrange
  · exact ⟨le_max_left _ _, max_le (hrange.1.trans hrange.2) (min_le_left _ _)⟩

end QueryReview.Decimal
