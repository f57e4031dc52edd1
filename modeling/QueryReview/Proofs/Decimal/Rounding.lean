-- Rounding in exact arithmetic: to whole numbers, and to the grid of the doubles. What a number is
-- rounded to is determined by the number, and no other point of the grid is nearer to it.
import Mathlib.Data.Int.Log
import Mathlib.Data.Rat.Floor
import Mathlib.Tactic.FieldSimp
import Mathlib.Tactic.Linarith
import Mathlib.Tactic.NormNum
import Mathlib.Tactic.Positivity
import Mathlib.Tactic.Ring
import QueryReview.Decimal.Layout

namespace QueryReview.Decimal

/-! ## Whole numbers -/

/-- The whole number nearest to `x`, of two the even one. -/
structure IsRounded (x : ℚ) (n : ℕ) : Prop where
  near : |x - n| ≤ 1 / 2
  even : |x - n| = 1 / 2 → n % 2 = 0

theorem IsRounded.unique {x : ℚ} {n k : ℕ} (h : IsRounded x n) (hk : IsRounded x k) : n = k := by
  have hnear := abs_le.mp h.near
  have hnear' := abs_le.mp hk.near
  by_contra hne
  -- Two different ones are next to each other, with `x` in the middle, so both would be even.
  rcases Nat.lt_or_gt_of_ne hne with hlt | hlt
  · have hsucc : (n : ℚ) + 1 ≤ k := by exact_mod_cast hlt
    have hx : x - n = 1 / 2 := by linarith
    have hx' : x - k = -(1 / 2) := by linarith
    have heven := h.even (by rw [hx]; norm_num)
    have heven' := hk.even (by rw [hx']; norm_num)
    have hk1 : k = n + 1 := by
      have : (k : ℚ) = n + 1 := by linarith
      exact_mod_cast this
    omega
  · have hsucc : (k : ℚ) + 1 ≤ n := by exact_mod_cast hlt
    have hx : x - n = -(1 / 2) := by linarith
    have hx' : x - k = 1 / 2 := by linarith
    have heven := h.even (by rw [hx]; norm_num)
    have heven' := hk.even (by rw [hx']; norm_num)
    have hk1 : n = k + 1 := by
      have : (n : ℚ) = k + 1 := by linarith
      exact_mod_cast this
    omega

/-- Of the numbers that are as near to a whole number as one that is rounded to it, all are. -/
theorem IsRounded.of_nearer {x y : ℚ} {n : ℕ} (h : IsRounded x n) (hy : |y - n| ≤ |x - n|) :
    IsRounded y n := by
  refine ⟨hy.trans h.near, fun heq => h.even ?_⟩
  exact le_antisymm h.near (heq ▸ hy)

theorem isRounded_natCast (n : ℕ) : IsRounded n n := by
  constructor <;> norm_num

/-- A whole number is at least as near as any other. -/
theorem IsRounded.nearest {x : ℚ} {n : ℕ} (h : IsRounded x n) (k : ℕ) : |x - n| ≤ |x - k| := by
  by_cases hk : k = n
  · rw [hk]
  · have hnear := h.near
    have hgap : (1 : ℚ) ≤ |(k : ℚ) - n| := by
      have : (1 : ℤ) ≤ |(k : ℤ) - n| := Int.one_le_abs (by omega)
      exact_mod_cast this
    have htri : |(k : ℚ) - n| ≤ |x - k| + |x - n| := by
      rw [abs_sub_comm x k]
      exact abs_sub_le (k : ℚ) x n
    linarith

theorem isRounded_of_lt {x : ℚ} {n : ℕ} (h : |x - n| < 1 / 2) : IsRounded x n :=
  ⟨h.le, fun heq => absurd heq h.ne⟩

/-! ## Quotients of whole numbers -/

theorem natCast_div_natCast (a : ℕ) {d : ℕ} (hd : 0 < d) :
    (a : ℚ) / d = (a / d : ℕ) + (a % d : ℕ) / d := by
  have hdq : (0 : ℚ) < d := by exact_mod_cast hd
  have hdiv : (a : ℚ) = (a / d : ℕ) * d + (a % d : ℕ) := by
    exact_mod_cast (Nat.div_add_mod' a d).symm
  field_simp
  linarith

theorem rest_div_lt_one {rest d : ℕ} (h : rest < d) : (rest : ℚ) / d < 1 := by
  have hdq : (0 : ℚ) < d := by exact_mod_cast Nat.zero_lt_of_lt h
  rw [div_lt_one hdq]
  exact_mod_cast h

/-- Where the rest of a division lies beside half of the divisor. -/
theorem rest_div_half (rest : ℕ) {d : ℕ} (hd : 0 < d) :
    (2 * rest < d → (rest : ℚ) / d < 1 / 2) ∧ (2 * rest = d → (rest : ℚ) / d = 1 / 2) ∧
      (d < 2 * rest → 1 / 2 < (rest : ℚ) / d) := by
  have hdq : (0 : ℚ) < d := by exact_mod_cast hd
  refine ⟨fun h => ?_, fun h => ?_, fun h => ?_⟩
  · have : (2 * rest : ℚ) < d := by exact_mod_cast h
    rw [div_lt_div_iff₀ hdq two_pos]
    linarith
  · have : (2 * rest : ℚ) = d := by exact_mod_cast h
    rw [div_eq_div_iff hdq.ne' two_ne_zero]
    linarith
  · have : (d : ℚ) < 2 * rest := by exact_mod_cast h
    rw [div_lt_div_iff₀ two_pos hdq]
    linarith

theorem isRounded_roundDiv (a : ℕ) {d : ℕ} (hd : 0 < d) : IsRounded (a / d) (roundDiv a d) := by
  have hrest := Nat.mod_lt a hd
  rw [natCast_div_natCast a hd]
  unfold roundDiv
  dsimp only
  generalize a / d = below
  generalize a % d = rest at hrest
  obtain ⟨hbelow, hmiddle, habove⟩ := rest_div_half rest hd
  rcases lt_trichotomy (2 * rest) d with h | h | h
  · have hhalf := hbelow h
    rw [if_pos h]
    apply isRounded_of_lt
    rw [add_sub_cancel_left, abs_of_nonneg (by positivity)]
    exact hhalf
  · rw [if_neg (by omega), if_neg (by omega), hmiddle h]
    split
    · rename_i heven
      exact ⟨by norm_num, fun _ => heven⟩
    · refine ⟨?_, fun _ => by omega⟩
      rw [abs_le, Nat.cast_add, Nat.cast_one]
      constructor <;> linarith
  · have hhalf := habove h
    have hone := rest_div_lt_one hrest
    rw [if_neg (by omega), if_pos h]
    apply isRounded_of_lt
    push_cast
    rw [abs_lt]
    constructor <;> linarith

/-! ## The grid of the doubles -/

/-- The parts of a number that a double may have, but for its size. -/
structure Binary.Canonical (b : Binary) : Prop where
  mantissa_lt : b.mantissa < 2 ^ 53
  bottom_le : -1074 ≤ b.exponent
  full : b.exponent ≠ -1074 → 2 ^ 52 ≤ b.mantissa

def Binary.unsigned (b : Binary) : Binary := { b with negative := false }

/-- The number without its sign. -/
def Binary.size (b : Binary) : ℚ := b.mantissa * 2 ^ b.exponent

/-- The doubles of the size of `q` are the multiples of `2 ^ t`: so far down reach 53 binary
digits, unless the grid ends before. -/
structure Grid (q : ℚ) (t : ℤ) : Prop where
  bottom_le : -1074 ≤ t
  lt : q < 2 ^ 53 * 2 ^ t
  le : t ≠ -1074 → 2 ^ 52 * 2 ^ t ≤ q

/-- So many units of `2 ^ t`, in larger units when there is one binary digit too many. -/
def carried (n : ℕ) (t : ℤ) : Binary :=
  if n = 2 ^ 53 then ⟨false, 2 ^ 52, t + 1⟩ else ⟨false, n, t⟩

/-- The number `q` rounded to the grid of the doubles, which does not end at the top here. -/
inductive Rounds (q : ℚ) : Binary → Prop
  | intro {t : ℤ} {n : ℕ} (hg : Grid q t) (hn : IsRounded (q / 2 ^ t) n) : Rounds q (carried n t)

theorem two_zpow_pos (t : ℤ) : (0 : ℚ) < 2 ^ t := zpow_pos two_pos t

theorem two_zpow_succ (t : ℤ) : (2 : ℚ) ^ (t + 1) = 2 * 2 ^ t := by
  rw [zpow_add_one₀ two_ne_zero, mul_comm]

theorem Grid.unique {q : ℚ} {t u : ℤ} (h : Grid q t) (hu : Grid q u) : t = u := by
  -- Of two units the larger would have the number below its least mantissa.
  have hlt : ∀ {t u : ℤ}, Grid q t → Grid q u → ¬ t < u := by
    intro t u h hu hlt
    have hle := hu.le (by have := h.bottom_le; omega)
    have hpow : (2 : ℚ) ^ (t + 1) ≤ 2 ^ u := zpow_le_zpow_right₀ one_le_two hlt
    rw [two_zpow_succ] at hpow
    linarith [h.lt]
  exact le_antisymm (not_lt.mp (hlt hu h)) (not_lt.mp (hlt h hu))

theorem Rounds.unique {q : ℚ} {b c : Binary} (h : Rounds q b) (hc : Rounds q c) : b = c := by
  obtain ⟨hg, hn⟩ := h
  obtain ⟨hg', hn'⟩ := hc
  cases hg.unique hg'
  rw [hn.unique hn']

theorem size_carried (n : ℕ) (t : ℤ) : (carried n t).size = n * 2 ^ t := by
  unfold carried Binary.size
  split
  · rename_i h
    rw [h, two_zpow_succ]
    push_cast
    ring
  · rfl

theorem Grid.rounded_le {q : ℚ} {t : ℤ} {n : ℕ} (h : Grid q t) (hn : IsRounded (q / 2 ^ t) n) :
    n ≤ 2 ^ 53 := by
  have hlt : q / 2 ^ t < 2 ^ 53 := (div_lt_iff₀ (two_zpow_pos t)).mpr h.lt
  have hnear := (abs_le.mp hn.near).1
  have hn : (n : ℚ) < 2 ^ 53 + 1 := by linarith
  have : n < 2 ^ 53 + 1 := by exact_mod_cast hn
  omega

theorem Grid.le_rounded {q : ℚ} {t : ℤ} {n : ℕ} (h : Grid q t) (hn : IsRounded (q / 2 ^ t) n)
    (ht : t ≠ -1074) : 2 ^ 52 ≤ n := by
  have hle : 2 ^ 52 ≤ q / 2 ^ t := (le_div_iff₀ (two_zpow_pos t)).mpr (h.le ht)
  have hnear := (abs_le.mp hn.near).2
  have hn : (2 : ℚ) ^ 52 < n + 1 := by linarith
  have : 2 ^ 52 < n + 1 := by exact_mod_cast hn
  omega

theorem Rounds.canonical {q : ℚ} {b : Binary} (h : Rounds q b) : b.Canonical := by
  obtain ⟨hg, hn⟩ := h
  have hle := hg.rounded_le hn
  have hbottom := hg.bottom_le
  unfold carried
  split
  · constructor
    · norm_num
    · dsimp only
      omega
    · exact fun _ => le_rfl
  · refine ⟨?_, hbottom, hg.le_rounded hn⟩
    dsimp only
    omega

theorem Rounds.negative {q : ℚ} {b : Binary} (h : Rounds q b) : b.negative = false := by
  obtain ⟨hg, hn⟩ := h
  unfold carried
  split <;> rfl

theorem Binary.Canonical.size_lt {b : Binary} (h : b.Canonical) : b.size < 2 ^ 53 * 2 ^ b.exponent := by
  have : (b.mantissa : ℚ) < 2 ^ 53 := by exact_mod_cast h.mantissa_lt
  exact mul_lt_mul_of_pos_right this (two_zpow_pos _)

/-- A number on a coarser grid is on the finer one too. -/
theorem exists_size_eq {b : Binary} {t : ℤ} (h : t ≤ b.exponent) :
    ∃ k : ℕ, b.size = k * 2 ^ t := by
  refine ⟨b.mantissa * 2 ^ (b.exponent - t).toNat, ?_⟩
  have hexp : b.exponent = (b.exponent - t).toNat + t := by omega
  unfold Binary.size
  conv => lhs; rw [hexp]
  rw [zpow_add₀ two_ne_zero, zpow_natCast]
  push_cast
  ring

/-- No double is nearer to a number than the one that it is rounded to. -/
theorem Rounds.nearest {q : ℚ} {b c : Binary} (h : Rounds q b) (hc : c.Canonical) :
    |q - b.size| ≤ |q - c.size| := by
  obtain @⟨t, n, hg, hn⟩ := h
  rw [size_carried]
  have hpos := two_zpow_pos t
  have hscale : ∀ k : ℕ, |q - k * 2 ^ t| = |q / 2 ^ t - k| * 2 ^ t := by
    intro k
    rw [← abs_of_pos hpos, ← abs_mul, abs_of_pos hpos, sub_mul, div_mul_cancel₀ _ hpos.ne']
  have hmultiple : ∀ k : ℕ, |q - n * 2 ^ t| ≤ |q - k * 2 ^ t| := by
    intro k
    rw [hscale, hscale]
    exact mul_le_mul_of_nonneg_right (hn.nearest k) hpos.le
  rcases le_or_gt t c.exponent with hle | hlt
  · obtain ⟨k, hk⟩ := exists_size_eq hle
    rw [hk]
    exact hmultiple k
  · -- The double is of a finer grid, so it lies below all the numbers of this one.
    have hbelow : c.size ≤ 2 ^ 52 * 2 ^ t := by
      have hpow : (2 : ℚ) ^ (c.exponent + 1) ≤ 2 ^ t := zpow_le_zpow_right₀ one_le_two hlt
      rw [two_zpow_succ] at hpow
      linarith [Binary.Canonical.size_lt hc]
    have hq := hg.le (by have := hc.bottom_le; omega)
    have hfirst := hmultiple (2 ^ 52)
    rw [Nat.cast_pow, Nat.cast_ofNat] at hfirst
    rw [abs_of_nonneg (by linarith : (0 : ℚ) ≤ q - 2 ^ 52 * 2 ^ t)] at hfirst
    rw [abs_of_nonneg (by linarith : (0 : ℚ) ≤ q - c.size)]
    linarith

/-! ## Every number is rounded to some double -/

theorem exists_isRounded {x : ℚ} (hx : 0 ≤ x) : ∃ n, IsRounded x n := by
  have hnum : ((x.num.toNat : ℤ) : ℚ) = x.num := by
    rw [Int.toNat_of_nonneg (Rat.num_nonneg.mpr hx)]
  have hrounded := isRounded_roundDiv x.num.toNat x.den_pos
  rw [← Int.cast_natCast, hnum, Rat.num_div_den] at hrounded
  exact ⟨_, hrounded⟩

theorem exists_grid {q : ℚ} (hq : 0 ≤ q) : ∃ t, Grid q t := by
  have hscale : ∀ (k : ℕ) (t : ℤ), (2 : ℚ) ^ k * 2 ^ t = 2 ^ (k + t) := by
    intro k t
    rw [zpow_add₀ two_ne_zero, zpow_natCast]
  rcases hq.eq_or_lt with rfl | hpos
  · refine ⟨-1074, le_rfl, ?_, fun h => absurd rfl h⟩
    exact mul_pos (by norm_num) (two_zpow_pos _)
  · have hlow := Int.zpow_log_le_self one_lt_two hpos
    have hhigh := Int.lt_zpow_succ_log_self one_lt_two q
    push_cast at hlow hhigh
    refine ⟨max (Int.log 2 q - 52) (-1074), le_max_right _ _, ?_, fun hne => ?_⟩
    · rw [hscale]
      exact hhigh.trans_le (zpow_le_zpow_right₀ one_le_two (by push_cast; omega))
    · have htop : ((52 : ℕ) : ℤ) + max (Int.log 2 q - 52) (-1074) = Int.log 2 q := by omega
      rwa [hscale, htop]

theorem exists_rounds {q : ℚ} (hq : 0 ≤ q) : ∃ b, Rounds q b := by
  obtain ⟨t, ht⟩ := exists_grid hq
  obtain ⟨n, hn⟩ := exists_isRounded (div_nonneg hq (two_zpow_pos t).le)
  exact ⟨_, .intro ht hn⟩

/-! ## Which double it is -/

theorem rounds_of_isRounded {q : ℚ} {b : Binary} (h : b.Canonical)
    (hn : IsRounded (q / 2 ^ b.exponent) b.mantissa)
    (hle : b.exponent ≠ -1074 → 2 ^ 52 * 2 ^ b.exponent ≤ q) :
    Rounds q b.unsigned := by
  have hM : (b.mantissa : ℚ) + 1 ≤ 2 ^ 53 := by exact_mod_cast h.mantissa_lt
  have hlt : q < 2 ^ 53 * 2 ^ b.exponent := by
    rw [← div_lt_iff₀ (two_zpow_pos _)]
    linarith [(abs_le.mp hn.near).2]
  have hcarried : carried b.mantissa b.exponent = b.unsigned := if_neg h.mantissa_lt.ne
  rw [← hcarried]
  exact .intro ⟨h.bottom_le, hlt, hle⟩ hn

theorem Binary.Canonical.exponent_lt {b : Binary} (h : b.Canonical) {t : ℤ} (ht : -1074 < t)
    (hlt : b.size < 2 ^ 52 * 2 ^ t) : b.exponent < t := by
  by_contra hle
  have hm : (2 : ℚ) ^ 52 ≤ b.mantissa := by exact_mod_cast h.full (by omega)
  have hpow : (2 : ℚ) ^ t ≤ 2 ^ b.exponent := zpow_le_zpow_right₀ one_le_two (by omega)
  have hsize : (2 : ℚ) ^ 52 * 2 ^ t ≤ b.size :=
    mul_le_mul hm hpow (two_zpow_pos t).le (Nat.cast_nonneg _)
  exact absurd hlt (not_lt.mpr hsize)

/-- A number that a double has is not changed by rounding. -/
theorem Binary.Canonical.rounds {b : Binary} (h : b.Canonical) :
    Rounds b.size b.unsigned := by
  have hunits : b.size / 2 ^ b.exponent = b.mantissa :=
    mul_div_cancel_right₀ _ (two_zpow_pos _).ne'
  apply rounds_of_isRounded h
  · rw [hunits]
    exact isRounded_natCast _
  · intro he
    have hm : (2 : ℚ) ^ 52 ≤ b.mantissa := by exact_mod_cast h.full he
    exact mul_le_mul_of_nonneg_right hm (two_zpow_pos _).le

theorem two_pow_div_two_pow (e : ℤ) : (2 : ℚ) ^ e.toNat / 2 ^ (-e).toNat = 2 ^ e := by
  rw [← zpow_natCast, ← zpow_natCast, ← zpow_sub₀ two_ne_zero]
  congr 1
  omega

theorem numerator_div_denominator (b : Binary) : (b.numerator : ℚ) / b.denominator = b.size := by
  rw [Binary.size, ← two_pow_div_two_pow b.exponent, ← mul_div_assoc]
  simp [Binary.numerator, Binary.denominator]

theorem Rounds.lt {q : ℚ} {b : Binary} (h : Rounds q b) : q < 2 ^ 53 * 2 ^ b.exponent := by
  obtain @⟨t, n, hg, hn⟩ := h
  have hle : t ≤ (carried n t).exponent := by
    unfold carried
    split
    · exact Int.le_add_one le_rfl
    · exact le_rfl
  have hpow : (2 : ℚ) ^ t ≤ 2 ^ (carried n t).exponent := zpow_le_zpow_right₀ one_le_two hle
  linarith [hg.lt]

end QueryReview.Decimal
