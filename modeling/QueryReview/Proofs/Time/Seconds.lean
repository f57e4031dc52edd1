-- A duration in seconds, as a double. However long it is, the double is finite: the whole seconds are
-- fewer than `2 ^ 64`, and the rest is less than one.
import QueryReview.Proofs.Decimal.Addition
import QueryReview.Time.Duration

namespace QueryReview.Time

open Decimal
open Float.Model (UnpackedFloat)

/-- A number of 64 bits is rounded to a double that is not above `2 ^ 64`. -/
theorem toFloat_le (n : UInt64) :
    n.toFloat.isFinite = true ∧ (Binary.ofFloat n.toFloat).size ≤ 2 ^ (64 : ℤ) := by
  suffices h : ∃ b : Binary, b.Canonical ∧ b.exponent ≤ 971 ∧ b.size ≤ 2 ^ (64 : ℤ) ∧
      UnpackedFloat.ofUInt64 .binary64 n = b.unpacked by
    obtain ⟨b, hb, he, hsize, heq⟩ := h
    have hdouble : n.toFloat = b.toDouble := by
      rw [Binary.toDouble, ← heq]
      rfl
    rw [hdouble, ofFloat_toDouble hb he]
    exact ⟨isFinite_toDouble hb he, hsize⟩
  unfold UnpackedFloat.ofUInt64 UnpackedFloat.ofNat UnpackedFloat.ofInt
  by_cases hn : n.toNat = 0
  · refine ⟨⟨false, 0, -1074⟩, canonical_zero _, by simp, ?_, ?_⟩
    · rw [(size_eq_zero_iff _).mpr rfl]
      exact (two_zpow_pos _).le
    · rw [hn]
      rfl
  · have hle : |((n.toNat : ℤ) : ℚ)| * 2 ^ (0 : ℤ) ≤ 2 ^ (64 : ℤ) := by
      have hlt : (n.toNat : ℚ) < 2 ^ 64 := by exact_mod_cast n.toNat_lt
      rw [zpow_zero, mul_one, Int.cast_natCast, Nat.abs_cast]
      exact_mod_cast hlt.le
    have htop : (2 : ℚ) ^ (64 : ℤ) ≤ 2 ^ (1023 : ℤ) := zpow_le_zpow_right₀ one_le_two (by norm_num)
    obtain ⟨b, hb, he, hrounds, heq⟩ :=
      exists_normalize (Int.natCast_ne_zero.mpr hn) (hle.trans htop)
    exact ⟨b, hb, he, hrounds.size_le_two_pow (by norm_num) hle, heq⟩

/-- The part of a second behind the whole ones. -/
theorem rest_le {rest : ℕ} (h : rest < Duration.perSecond) :
    let x := rest.toUInt64.toFloat / Duration.perSecond.toUInt64.toFloat
    x.isFinite = true ∧ (Binary.ofFloat x).size ≤ 1 := by
  intro x
  have hsecond : Duration.perSecond = 10 ^ 9 := rfl
  by_cases hrest : rest = 0
  · have hzero : x.isFinite = true ∧ (Binary.ofFloat x).mantissa = 0 := by
      subst hrest
      decide +kernel
    refine ⟨hzero.1, ?_⟩
    rw [(size_eq_zero_iff _).mpr hzero.2]
    exact zero_le_one
  · obtain ⟨b, hb, hb0, hbsize, hbx⟩ := toFloat_of_lt hrest (by omega)
    obtain ⟨c, hc, hc0, hcsize, hcx⟩ :=
      toFloat_of_lt (n := Duration.perSecond) (by decide) (by decide)
    obtain ⟨d, hd, hquotient⟩ := div_toDouble hbx hcx hb hc hb0 hc0
    have hle : b.size / c.size ≤ 2 ^ (0 : ℤ) := by
      have hlt : (rest : ℚ) ≤ Duration.perSecond := by exact_mod_cast h.le
      have hpos : (0 : ℚ) < Duration.perSecond := by
        exact_mod_cast (by decide : 0 < Duration.perSecond)
      rw [zpow_zero, hbsize, hcsize]
      exact (div_le_one hpos).mpr hlt
    have htop : (2 : ℚ) ^ (0 : ℤ) ≤ 2 ^ (1023 : ℤ) := zpow_le_zpow_right₀ one_le_two (by norm_num)
    have he := hd.exponent_le (hle.trans htop)
    have hsize := hd.size_le_two_pow (by norm_num) hle
    have hx : x = d.toDouble := hquotient
    rw [zpow_zero] at hsize
    rw [hx, ofFloat_toDouble hd.canonical he]
    exact ⟨isFinite_toDouble hd.canonical he, hsize⟩

/-- A duration is a finite number of seconds. -/
theorem isFinite_seconds (d : Duration) : d.seconds.isFinite = true := by
  obtain ⟨hwhole, hwholeSize⟩ := toFloat_le (d.nanoseconds / Duration.perSecond).toUInt64
  obtain ⟨hrest, hrestSize⟩ := rest_le (Nat.mod_lt d.nanoseconds (by decide))
  refine isFinite_add hwhole hrest ((add_le_add hwholeSize hrestSize).trans ?_)
  have hone : (1 : ℚ) ≤ 2 ^ (64 : ℤ) := one_le_zpow₀ one_le_two (by norm_num)
  calc (2 : ℚ) ^ (64 : ℤ) + 1 ≤ 2 * 2 ^ (64 : ℤ) := by linarith
    _ = 2 ^ (65 : ℤ) := (two_zpow_succ 64).symm
    _ ≤ 2 ^ (1023 : ℤ) := zpow_le_zpow_right₀ one_le_two (by norm_num)

end QueryReview.Time
