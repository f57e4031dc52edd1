-- The digits that a double is written with. The interval of a double holds the numbers that are
-- rounded to it, and seventeen digits are enough for a number in it, so the digits that are found
-- are read back as the double.
import Mathlib.Tactic.ByContra
import QueryReview.Decimal.Shortest
import QueryReview.Proofs.Decimal.Rounding

namespace QueryReview.Decimal

/-! ## The numbers that round to a double -/

/-- Below a power of two the doubles lie twice as close, and what is as near to the power as to them
rounds to the power. -/
theorem rounds_below_power {q : ℚ} {e : ℤ} (he : -1074 < e)
    (hlow : (2 ^ 52 - 1 / 4) * 2 ^ e ≤ q) (hq : q < 2 ^ 52 * 2 ^ e) :
    Rounds q ⟨false, 2 ^ 52, e⟩ := by
  have hpow : (2 : ℚ) ^ e = 2 * 2 ^ (e - 1) := by
    rw [← two_zpow_succ, sub_add_cancel]
  have hpos := two_zpow_pos (e - 1)
  rw [hpow] at hlow hq
  have hlow' : 2 ^ 53 - 1 / 2 ≤ q / 2 ^ (e - 1) := by
    rw [le_div_iff₀ hpos]
    linarith
  have hhigh' : q / 2 ^ (e - 1) < 2 ^ 53 := by
    rw [div_lt_iff₀ hpos]
    linarith
  have hcarried : carried (2 ^ 53) (e - 1) = ⟨false, 2 ^ 52, e⟩ := by
    rw [carried, if_pos rfl, sub_add_cancel]
  rw [← hcarried]
  refine .intro ⟨by omega, ?_, fun _ => by linarith⟩ ⟨?_, fun _ => by norm_num⟩
  · rw [← div_lt_iff₀ hpos]
    exact hhigh'
  · rw [abs_le]
    push_cast
    constructor <;> linarith

/-- The interval of a double ends half a unit above it, and below it half a unit of the doubles
there. -/
theorem Reach.ends (b : Binary) (hm : 0 < b.mantissa) :
    ((Reach.ofBinary b).low : ℚ) / (Reach.ofBinary b).denominator
        = (b.mantissa - if b.mantissa = 2 ^ 52 ∧ -1074 < b.exponent then 1 / 4 else 1 / 2)
          * 2 ^ b.exponent ∧
      ((Reach.ofBinary b).high : ℚ) / (Reach.ofBinary b).denominator
        = (b.mantissa + 1 / 2) * 2 ^ b.exponent := by
  have hscale : ∀ k : ℕ, ((k * 2 ^ b.exponent.toNat : ℕ) : ℚ) / ((4 * b.denominator : ℕ) : ℚ)
      = k / 4 * 2 ^ b.exponent := by
    intro k
    rw [← two_pow_div_two_pow b.exponent]
    simp only [Binary.denominator, Nat.pow_eq]
    push_cast
    ring
  simp only [Reach.ofBinary, Nat.pow_eq, hscale]
  constructor
  · congr 1
    split
    · rw [Nat.cast_sub (by omega)]
      push_cast
      ring
    · rw [Nat.cast_sub (by omega)]
      push_cast
      ring
  · congr 1
    push_cast
    ring

/-- The number lies in the interval. -/
def Reach.Holds (r : Reach) (q : ℚ) : Prop :=
  if r.closed then r.low / r.denominator ≤ q ∧ q ≤ r.high / r.denominator
  else r.low / r.denominator < q ∧ q < r.high / r.denominator

theorem Reach.Holds.le {r : Reach} {q : ℚ} (h : r.Holds q) :
    r.low / r.denominator ≤ q ∧ q ≤ r.high / r.denominator := by
  unfold Holds at h
  split at h
  · exact h
  · exact ⟨h.1.le, h.2.le⟩

theorem Reach.holds_of_lt {r : Reach} {q : ℚ} (hl : r.low / r.denominator < q)
    (hr : q < r.high / r.denominator) : r.Holds q := by
  unfold Holds
  split
  · exact ⟨hl.le, hr.le⟩
  · exact ⟨hl, hr⟩

/-- What lies in the interval of a double rounds to it. -/
theorem Reach.Holds.rounds {q : ℚ} {b : Binary} (h : (ofBinary b).Holds q) (hb : b.Canonical)
    (hm : 0 < b.mantissa) : Rounds q b.unsigned := by
  have hpos := two_zpow_pos b.exponent
  obtain ⟨hl, hr⟩ := Reach.ends b hm
  have hopen : ¬ b.mantissa % 2 = 0 → (ofBinary b).low / (ofBinary b).denominator < q ∧
      q < (ofBinary b).high / (ofBinary b).denominator := by
    intro hodd
    have hclosed : (ofBinary b).closed = false := decide_eq_false hodd
    rw [Holds, hclosed] at h
    exact h
  obtain ⟨hlow, hhigh⟩ := h.le
  rw [hl] at hlow hopen
  rw [hr] at hhigh hopen
  by_cases hbelow : (b.mantissa = 2 ^ 52 ∧ -1074 < b.exponent) ∧ q < 2 ^ 52 * 2 ^ b.exponent
  · obtain ⟨⟨hpower, he⟩, hlt⟩ := hbelow
    rw [if_pos ⟨hpower, he⟩, hpower] at hlow
    push_cast at hlow
    have := rounds_below_power he hlow hlt
    rwa [← hpower] at this
  · -- Above the double, and below one that is no power of two, its interval is one unit wide.
    obtain ⟨z, rfl⟩ : ∃ z, q = z * 2 ^ b.exponent := ⟨q / 2 ^ b.exponent, by field_simp⟩
    rw [mul_lt_mul_iff_left₀ hpos, mul_lt_mul_iff_left₀ hpos] at hopen
    rw [mul_le_mul_iff_left₀ hpos] at hlow hhigh
    rw [mul_lt_mul_iff_left₀ hpos, not_and, not_lt] at hbelow
    have hle : (b.mantissa : ℚ) - 1 / 2 ≤ z := by
      split at hlow
      · rename_i hpower
        have := hbelow hpower
        rw [hpower.1]
        linarith
      · exact hlow
    have hleast : b.exponent ≠ -1074 → 2 ^ 52 ≤ z := by
      intro he
      have hbottom := hb.bottom_le
      by_cases hpower : b.mantissa = 2 ^ 52
      · exact hbelow ⟨hpower, by omega⟩
      · have hfull := hb.full he
        have : (2 : ℚ) ^ 52 + 1 ≤ b.mantissa := by
          exact_mod_cast (by omega : 2 ^ 52 + 1 ≤ b.mantissa)
        linarith
    refine rounds_of_isRounded hb ?_ fun he => ?_
    · rw [mul_div_cancel_right₀ _ hpos.ne']
      refine ⟨abs_le.mpr ⟨by linarith, by linarith⟩, fun heq => ?_⟩
      by_contra heven
      obtain ⟨hl, hr⟩ := hopen heven
      rcases (abs_eq (by norm_num)).mp heq with hz | hz
      · linarith
      · split at hl
        · rename_i hpower
          have := hbelow hpower
          rw [hpower.1] at hz
          push_cast at hz
          linarith
        · linarith
    · rw [mul_le_mul_iff_left₀ hpos]
      exact hleast he

/-! ## The grids of decimal numbers -/

def Digits.value (d : Digits) : ℚ := d.digits * 10 ^ d.power

theorem value_trimZeros (digits : ℕ) (power : ℤ) :
    (Digits.trimZeros digits power).value = digits * 10 ^ power := by
  fun_induction Digits.trimZeros digits power with
  | case1 digits power h ih =>
    have hdigits : (digits : ℚ) = (digits / 10 : ℕ) * 10 := by
      exact_mod_cast (by omega : digits = digits / 10 * 10)
    rw [ih, zpow_add_one₀ (by norm_num), hdigits]
    ring
  | case2 => rfl

/-- The multiple of `10 ^ power` lies in the interval. -/
def Reach.isInside (r : Reach) (power : ℤ) (n : ℕ) : Bool :=
  let unit := r.denominator * Nat.pow 10 power.toNat
  let scale := Nat.pow 10 (-power).toNat
  if r.closed then r.low * scale ≤ n * unit && n * unit ≤ r.high * scale
  else r.low * scale < n * unit && n * unit < r.high * scale

theorem ten_pow_div_ten_pow (e : ℤ) : (10 : ℚ) ^ e.toNat / 10 ^ (-e).toNat = 10 ^ e := by
  rw [← zpow_natCast, ← zpow_natCast, ← zpow_sub₀ (by norm_num)]
  congr 1
  omega

theorem Reach.isInside_iff {r : Reach} (hd : 0 < r.denominator) (power : ℤ) (n : ℕ) :
    r.isInside power n = true ↔ r.Holds (n * 10 ^ power) := by
  have hdq : (0 : ℚ) < r.denominator := by exact_mod_cast hd
  have hscale : (0 : ℚ) < 10 ^ (-power).toNat := by positivity
  have hpoint : (n : ℚ) * 10 ^ power
      = n * (r.denominator * 10 ^ power.toNat) / (10 ^ (-power).toNat * r.denominator) := by
    rw [← ten_pow_div_ten_pow power]
    field_simp
  have hend : ∀ k : ℕ, (k : ℚ) / r.denominator
      = k * 10 ^ (-power).toNat / (10 ^ (-power).toNat * r.denominator) := by
    intro k
    field_simp
  have hpos := mul_pos hscale hdq
  unfold isInside Holds
  rw [hpoint, hend r.low, hend r.high]
  simp only [div_le_div_iff_of_pos_right hpos, div_lt_div_iff_of_pos_right hpos, Nat.pow_eq]
  split
  · rw [Bool.and_eq_true, decide_eq_true_eq, decide_eq_true_eq]
    norm_cast
  · rw [Bool.and_eq_true, decide_eq_true_eq, decide_eq_true_eq]
    norm_cast

/-- What is found on a grid lies in the interval. -/
theorem Reach.isInside_of_onGrid {r : Reach} {tie : Tie} {power : ℤ} {n : ℕ}
    (h : r.onGrid tie power = some n) : r.isInside power n = true := by
  unfold onGrid at h
  dsimp only at h
  split at h
  · rename_i hbelow _
    cases h
    exact hbelow
  · rename_i _ habove
    cases h
    exact habove
  · cases h
  · rename_i hbelow habove
    split at h
    · cases h
      exact hbelow
    · split at h
      · cases h
        exact habove
      · cases tie with
        | up =>
          cases h
          exact habove
        | toEven =>
          cases h
          split
          · exact hbelow
          · exact habove

/-- A grid with no point found has neither of the two points beside the double in the interval. -/
theorem Reach.isInside_of_onGrid_eq_none {r : Reach} {tie : Tie} {power : ℤ}
    (h : r.onGrid tie power = none) :
    let below := r.value * Nat.pow 10 (-power).toNat / (r.denominator * Nat.pow 10 power.toNat)
    r.isInside power below = false ∧ r.isInside power (below + 1) = false := by
  unfold onGrid at h
  dsimp only at h
  split at h
  · cases h
  · cases h
  · rename_i hbelow habove
    exact ⟨hbelow, habove⟩
  · split at h
    · cases h
    · split at h
      · cases h
      · cases tie <;> cases h

/-! ## Seventeen digits are enough -/

/-- No number is smaller than the power of ten of its leading digit. -/
theorem ten_pow_leadingPower_le {a d : ℕ} (ha : 0 < a) (hd : 0 < d) :
    (10 : ℚ) ^ leadingPower a d ≤ a / d := by
  have hdq : (0 : ℚ) < d := by exact_mod_cast hd
  have hcount : ∀ n k : ℕ, 0 < k → (digitCount n ≤ k ↔ n < 10 ^ k) := fun n k hk =>
    Nat.length_toDigits_le_iff (by decide) hk
  have hone : ∀ n, 1 ≤ digitCount n := fun n => List.length_pos_iff.mpr Nat.toDigits_ne_nil
  unfold leadingPower
  split
  · rename_i hle
    have hquotient : 1 ≤ a / d := (Nat.one_le_div_iff hd).mpr hle
    have hpow : 10 ^ (digitCount (a / d) - 1) ≤ a / d := by
      by_contra hlt
      rcases Nat.eq_or_lt_of_le (hone (a / d)) with h | h
      · rw [← h] at hlt
        exact hlt hquotient
      · have := (hcount (a / d) (digitCount (a / d) - 1) (by omega)).mpr (by omega)
        omega
    have hexp : Int.ofNat (digitCount (a / d)) - 1 = ((digitCount (a / d) - 1 : ℕ) : ℤ) := by
      have := hone (a / d)
      simp only [Int.ofNat_eq_natCast]
      omega
    rw [hexp, zpow_natCast]
    calc (10 : ℚ) ^ (digitCount (a / d) - 1) ≤ (a / d : ℕ) := by exact_mod_cast hpow
      _ ≤ a / d := by
        rw [natCast_div_natCast a hd]
        exact le_add_of_nonneg_right (by positivity)
  · rename_i hlt
    have hpow := (hcount ((d - 1) / a) _ (hone _)).mp le_rfl
    rw [Nat.div_lt_iff_lt_mul ha] at hpow
    have hle : (d : ℚ) ≤ 10 ^ digitCount ((d - 1) / a) * a := by
      exact_mod_cast (by omega : d ≤ 10 ^ digitCount ((d - 1) / a) * a)
    have hten : (0 : ℚ) < 10 ^ digitCount ((d - 1) / a) := by positivity
    rw [Int.ofNat_eq_natCast, zpow_neg, zpow_natCast, le_div_iff₀ hdq, inv_mul_le_iff₀ hten]
    exact hle

/-- A unit of the seventeenth digit is smaller than the interval. -/
theorem Reach.holds_of_near {b : Binary} (hb : b.Canonical) (hm : 0 < b.mantissa) {q u : ℚ}
    (hu : u ≤ b.size / 10 ^ 16) (hq : |b.size - q| ≤ u / 2) : (ofBinary b).Holds q := by
  have hpos := two_zpow_pos b.exponent
  obtain ⟨hl, hr⟩ := Reach.ends b hm
  obtain ⟨hlow, hhigh⟩ := abs_le.mp hq
  have hM : (b.mantissa : ℚ) < 2 ^ 53 := by exact_mod_cast hb.mantissa_lt
  have hunits : (b.mantissa : ℚ) * 2 ^ b.exponent < 2 ^ 53 * 2 ^ b.exponent :=
    mul_lt_mul_of_pos_right hM hpos
  unfold Binary.size at hu hlow hhigh
  apply holds_of_lt
  · rw [hl, sub_mul]
    split
    · rename_i hpower
      rw [hpower.1] at hu hhigh ⊢
      push_cast at hu hhigh ⊢
      linarith
    · linarith
  · rw [hr, add_mul]
    linarith

theorem value_div_denominator (b : Binary) :
    ((Reach.ofBinary b).value : ℚ) / (Reach.ofBinary b).denominator = b.size := by
  have hscale : (Reach.ofBinary b).value = 4 * b.numerator := by
    simp only [Reach.ofBinary, Binary.numerator, Nat.pow_eq, Nat.mul_assoc]
  have hdenominator : (Reach.ofBinary b).denominator = 4 * b.denominator := rfl
  rw [hscale, hdenominator, ← numerator_div_denominator]
  push_cast
  exact mul_div_mul_left _ _ (by norm_num)

theorem onGrid_isSome (tie : Tie) {b : Binary} (hb : b.Canonical) (hm : 0 < b.mantissa) :
    let r := Reach.ofBinary b
    (r.onGrid tie (leadingPower r.value r.denominator - 16)).isSome = true := by
  intro r
  have hd : 0 < r.denominator := by
    simp [r, Reach.ofBinary, Binary.denominator]
  have hv : 0 < r.value := by
    simp [r, Reach.ofBinary, hm]
  set power := leadingPower r.value r.denominator - 16 with hpower
  have hsize : (r.value : ℚ) / r.denominator = b.size := value_div_denominator b
  have hu : (10 : ℚ) ^ power ≤ b.size / 10 ^ 16 := by
    rw [hpower, zpow_sub₀ (by norm_num), ← hsize]
    exact div_le_div_of_nonneg_right (ten_pow_leadingPower_le hv hd) (by norm_num)
  have hpos : (0 : ℚ) < 10 ^ power := zpow_pos (by norm_num) power
  -- The double in units of the grid.
  obtain ⟨y, hy⟩ : ∃ y : ℚ, b.size = y * 10 ^ power := ⟨b.size / 10 ^ power, by field_simp⟩
  have hinside : ∀ n : ℕ, |y - n| ≤ 1 / 2 → r.isInside power n = true := by
    intro n hn
    refine (Reach.isInside_iff hd power n).mpr (Reach.holds_of_near hb hm hu ?_)
    rw [hy, ← sub_mul, abs_mul, abs_of_pos hpos]
    linarith [mul_le_mul_of_nonneg_right hn hpos.le]
  have hunit : 0 < r.denominator * 10 ^ power.toNat := by positivity
  have hunits : y = ((r.value * 10 ^ (-power).toNat : ℕ) : ℚ)
      / ((r.denominator * 10 ^ power.toNat : ℕ) : ℚ) := by
    have hdq : (r.denominator : ℚ) ≠ 0 := by exact_mod_cast hd.ne'
    rw [← hsize, ← ten_pow_div_ten_pow] at hy
    field_simp at hy
    push_cast
    rw [eq_div_iff (by positivity)]
    linarith
  have hrest := rest_div_lt_one (Nat.mod_lt (r.value * 10 ^ (-power).toNat) hunit)
  rw [natCast_div_natCast _ hunit] at hunits
  by_contra hnone
  obtain ⟨hbelow, habove⟩ := Reach.isInside_of_onGrid_eq_none (by simpa using hnone)
  simp only [Nat.pow_eq] at hbelow habove
  set below := r.value * 10 ^ (-power).toNat / (r.denominator * 10 ^ power.toNat)
  rcases le_or_gt (y - below) (1 / 2) with h | h
  · have hlow : -(1 / 2) ≤ y - below := by
      rw [hunits, add_sub_cancel_left]
      exact (by norm_num : -(1 / 2 : ℚ) ≤ 0).trans (by positivity)
    rw [hinside below (abs_le.mpr ⟨hlow, h⟩)] at hbelow
    cases hbelow
  · have hlow : -(1 / 2) ≤ y - (below + 1 : ℕ) := by
      push_cast
      linarith
    have hhigh : y - (below + 1 : ℕ) ≤ 1 / 2 := by
      push_cast
      linarith
    rw [hinside (below + 1) (abs_le.mpr ⟨hlow, hhigh⟩)] at habove
    cases habove

/-- The digits of a double are those of a number that is rounded to it. -/
theorem shortest_rounds (tie : Tie) {b : Binary} (hb : b.Canonical) (hm : 0 < b.mantissa) :
    Rounds (shortest tie b).value b.unsigned := by
  have hd : 0 < (Reach.ofBinary b).denominator := by
    simp [Reach.ofBinary, Binary.denominator]
  unfold shortest
  dsimp only
  generalize hfound : List.findSome? _ (List.range 17) = found
  cases found with
  | none =>
    rw [List.findSome?_eq_none_iff] at hfound
    have hlast := hfound 16 (by decide)
    rw [Option.map_eq_none_iff] at hlast
    have hsome := onGrid_isSome tie hb hm
    dsimp only at hsome
    rw [Int.ofNat_eq_natCast, Nat.cast_ofNat] at hlast
    rw [hlast] at hsome
    cases hsome
  | some digits =>
    obtain ⟨n, -, hn⟩ := List.exists_of_findSome?_eq_some hfound
    obtain ⟨k, hk, rfl⟩ := Option.map_eq_some_iff.mp hn
    rw [Option.getD_some, value_trimZeros]
    exact ((Reach.isInside_iff hd _ _).mp (Reach.isInside_of_onGrid hk)).rounds hb hm

theorem ofBinary_rounds (tie : Tie) {b : Binary} (hb : b.Canonical) :
    Rounds (Digits.ofBinary tie b).value b.unsigned := by
  unfold Digits.ofBinary
  split
  · rename_i hzero
    have hsize : b.size = (Digits.mk 0 0).value := by
      simp [Binary.size, Digits.value, hzero]
    rw [← hsize]
    exact hb.rounds
  · rename_i hne
    exact shortest_rounds tie hb (Nat.pos_of_ne_zero hne)

end QueryReview.Decimal
