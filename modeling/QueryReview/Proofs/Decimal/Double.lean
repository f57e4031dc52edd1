-- Doubles and their parts. The parts of a double are read off its bits, and what Lean's floats make
-- of a double that is finite are the same parts, so the parts determine it.
import Mathlib
import QueryReview.Proofs.Decimal.Rounding

namespace QueryReview.Decimal

open Float.Model (UnpackedFloat)
open Float.Model.UnpackedFloat

/-! ## The bits of a double -/

theorem toNat_packComponents (s : Sign) (e : BitVec 11) (m : BitVec 52) :
    (packComponents .binary64 s e m).toNat
      = (if s == .negative then 2 ^ 63 else 0) + e.toNat * 2 ^ 52 + m.toNat := by
  have hs : (s.toBitVec ++ e).toNat = (if s == .negative then 2 ^ 11 else 0) + e.toNat := by
    rw [BitVec.toNat_append, ← Nat.shiftLeft_add_eq_or_of_lt e.isLt]
    cases s <;> rfl
  unfold packComponents
  rw [BitVec.toNat_append, ← Nat.shiftLeft_add_eq_or_of_lt m.isLt, Nat.shiftLeft_eq]
  change (s.toBitVec ++ e).toNat * 2 ^ 52 + m.toNat = _
  rw [hs]
  split <;> omega

theorem ofFloat_of_bits {x : Float} {s : Sign} {e : BitVec 11} {m : BitVec 52}
    (h : x.toModel.toBits.toBitVec = packComponents .binary64 s e m) :
    Binary.ofFloat x = if e.toNat = 0 then ⟨s == .negative, m.toNat, -1074⟩
      else ⟨s == .negative, m.toNat + 2 ^ 52, e.toNat - 1075⟩ := by
  have hbits : x.toBits.toNat
      = (if s == .negative then 2 ^ 63 else 0) + e.toNat * 2 ^ 52 + m.toNat := by
    rw [← toNat_packComponents, ← h]
    rfl
  have he := e.isLt
  have hm := m.isLt
  have hfield : x.toBits.toNat / 2 ^ 52 % 2 ^ 11 = e.toNat := by
    rw [hbits]
    split <;> omega
  have hfraction : x.toBits.toNat % 2 ^ 52 = m.toNat := by
    rw [hbits]
    split <;> omega
  have hsign : decide (2 ^ 63 ≤ x.toBits.toNat) = (s == .negative) := by
    rw [hbits]
    cases s == .negative with
    | true => exact decide_eq_true (by simp; omega)
    | false => exact decide_eq_false (by simp; omega)
  unfold Binary.ofFloat
  simp only [Nat.pow_eq, hfield, hfraction, hsign]
  rfl

theorem exists_bits (x : Float) : ∃ (s : Sign) (e : BitVec 11) (m : BitVec 52),
    x.toModel.toBits.toBitVec = packComponents .binary64 s e m :=
  ⟨_, _, _, (@packComponents_unpackSign_unpackExponent_unpackMantissa .binary64
    x.toModel.toBits.toBitVec).symm⟩

theorem canonical_ofFloat (x : Float) : (Binary.ofFloat x).Canonical := by
  obtain ⟨s, e, m, h⟩ := exists_bits x
  have hm := m.isLt
  rw [ofFloat_of_bits h]
  split
  · constructor <;> simp; omega
  · constructor <;> simp <;> omega

/-! ## A finite double is what its parts make it -/

/-- The sign of a double in the terms of Lean's floats. -/
def Binary.sign (b : Binary) : Sign := if b.negative then .negative else .positive

/-- The number as a float that is not packed into bits. -/
def Binary.unpacked (b : Binary) : UnpackedFloat :=
  if h : b.mantissa = 0 then .zero b.sign
  else .finite b.sign b.mantissa b.exponent (Nat.pos_of_ne_zero h)

def Binary.toDouble (b : Binary) : Float := .ofModel (.pack b.unpacked)

theorem sign_beq (s : Sign) (m : Nat) (e : Int) : (Binary.mk (s == .negative) m e).sign = s := by
  cases s <;> rfl

theorem unpack_of_bits {x : Float} {s : Sign} {e : BitVec 11} {m : BitVec 52}
    (h : x.toModel.toBits.toBitVec = packComponents .binary64 s e m) :
    x.toModel.unpack = if e = -1#11 then (if m = 0#52 then .infinity s else .notANumber)
      else (Binary.ofFloat x).unpacked := by
  have hone : (1#1 ++ m).toNat = m.toNat + 2 ^ 52 := by
    rw [BitVec.toNat_append, ← Nat.shiftLeft_add_eq_or_of_lt m.isLt, Nat.add_comm]
    rfl
  have hm0 : m = 0#52 ↔ m.toNat = 0 := by rw [← BitVec.toNat_inj]; rfl
  have he0 : e = 0#11 ↔ e.toNat = 0 := by rw [← BitVec.toNat_inj]; rfl
  rw [ofFloat_of_bits h]
  unfold Float.Model.unpack
  rw [h]
  unfold UnpackedFloat.unpack
  simp only [unpackMantissa_packComponents, unpackExponent_packComponents,
    unpackSign_packComponents, Sign.ofBitVec_toBitVec]
  split
  · rfl
  · split
    · rename_i he
      rw [he0] at he
      unfold Binary.unpacked
      rw [if_pos he]
      split
      · rename_i hm
        rw [dif_pos (hm0.mp hm), sign_beq]
      · rename_i hm
        rw [dif_neg (mt hm0.mpr hm)]
        simp only [sign_beq, UnpackedFloat.finite.injEq, true_and]
        rw [he]
        rfl
    · rename_i he
      rw [he0] at he
      unfold Binary.unpacked
      rw [if_neg he, dif_neg (by simp)]
      simp only [sign_beq, UnpackedFloat.finite.injEq, true_and]
      exact ⟨hone, rfl⟩

theorem isFinite_of_bits {x : Float} {s : Sign} {e : BitVec 11} {m : BitVec 52}
    (h : x.toModel.toBits.toBitVec = packComponents .binary64 s e m) :
    x.isFinite = decide (e ≠ -1#11) := by
  change x.toModel.unpack.isFinite = _
  rw [unpack_of_bits h]
  by_cases he : e = -1#11
  · rw [if_pos he, decide_eq_false (not_not_intro he)]
    split <;> rfl
  · rw [if_neg he, decide_eq_true he]
    unfold Binary.unpacked
    split <;> rfl

theorem isFinite_iff (x : Float) : x.isFinite = true ↔ (Binary.ofFloat x).exponent ≤ 971 := by
  obtain ⟨s, e, m, h⟩ := exists_bits x
  have he : e ≠ -1#11 ↔ e.toNat ≠ 2047 := by
    rw [ne_eq, ← BitVec.toNat_inj]
    rfl
  have hlt := e.isLt
  rw [isFinite_of_bits h, decide_eq_true_eq, he, ofFloat_of_bits h]
  split
  · simp; omega
  · simp; omega

theorem unpack_of_isFinite {x : Float} (h : x.isFinite = true) :
    x.toModel.unpack = (Binary.ofFloat x).unpacked := by
  obtain ⟨s, e, m, hbits⟩ := exists_bits x
  have he : e ≠ -1#11 := by simpa [isFinite_of_bits hbits] using h
  rw [unpack_of_bits hbits, if_neg he]

theorem toDouble_ofFloat {x : Float} (h : x.isFinite = true) :
    (Binary.ofFloat x).toDouble = x := by
  rw [← Float.toBits_inj]
  have hpack := pack_unpack_of_valid x.toModel.valid
  unfold Binary.toDouble
  rw [← unpack_of_isFinite h]
  exact congrArg UInt64.ofBitVec hpack

theorem eq_of_ofFloat_eq {x y : Float} (hx : x.isFinite = true) (hy : y.isFinite = true)
    (h : Binary.ofFloat x = Binary.ofFloat y) : x = y := by
  rw [← toDouble_ofFloat hx, ← toDouble_ofFloat hy, h]

theorem beq_negative_sign (b : Binary) : (b.sign == .negative) = b.negative := by
  unfold Binary.sign
  cases b.negative <;> rfl

theorem pack_finite (s : Sign) {m : Nat} {e : Int} (hm : 0 < m) (hlt : m < 2 ^ 53) (he : e ≤ 971) :
    UnpackedFloat.pack .binary64 (.finite s m e hm)
      = if 2 ^ 52 ≤ m then
          packComponents .binary64 s (BitVec.ofNat 11 (e + 1075).toNat) (BitVec.ofNat 52 m)
        else packComponents .binary64 s 0#11 (BitVec.ofNat 52 m) := by
  have hbiased : (e + Float.Model.Format.binary64.exponentBias
      + Float.Model.Format.binary64.mantissaBitsWithoutImplicit).toNat = (e + 1075).toNat := by
    have hbias : (Float.Model.Format.binary64.exponentBias : Int) = 1023 := rfl
    simp only [hbias]
    omega
  have hfull : m.log2 + 1 = 53 ↔ 2 ^ 52 ≤ m := by
    rw [← Nat.le_log2 (by omega)]
    have := (Nat.log2_lt (by omega)).mpr hlt
    omega
  unfold UnpackedFloat.pack
  dsimp only
  rw [hbiased, if_neg (by simp; omega)]
  simp only [Float.Model.Format.mantissaBits, hfull]

theorem ofFloat_toDouble {b : Binary} (h : b.Canonical) (he : b.exponent ≤ 971) :
    Binary.ofFloat b.toDouble = b := by
  have hsign := beq_negative_sign b
  obtain ⟨negative, m, e⟩ := b
  obtain ⟨hlt, hbottom, hfull⟩ := h
  dsimp only at hlt hbottom hfull he hsign
  unfold Binary.toDouble Binary.unpacked
  dsimp only
  split
  · rename_i hz
    have hexponent : e = -1074 := by
      by_contra hne
      have := hfull hne
      omega
    have hzero := ofFloat_of_bits (x := .ofModel (.pack (.zero (Binary.mk negative m e).sign))) rfl
    rw [hzero, hsign, hz, hexponent]
    rfl
  · rename_i hz
    have hbits : (Float.ofModel (.pack (.finite (Binary.mk negative m e).sign m e
        (Nat.pos_of_ne_zero hz)))).toModel.toBits.toBitVec = _ :=
      pack_finite _ (Nat.pos_of_ne_zero hz) hlt he
    split at hbits
    · rename_i hle
      have hfield : (BitVec.ofNat 11 (e + 1075).toNat).toNat = (e + 1075).toNat := by
        rw [BitVec.toNat_ofNat, Nat.mod_eq_of_lt (by omega)]
      rw [ofFloat_of_bits hbits, hsign, hfield, if_neg (by omega), BitVec.toNat_ofNat]
      simp only [Binary.mk.injEq, true_and]
      omega
    · rename_i hle
      have hexponent : e = -1074 := by
        by_contra hne
        exact hle (hfull hne)
      have hzero : (0#11).toNat = 0 := rfl
      rw [ofFloat_of_bits hbits, hsign, if_pos hzero, BitVec.toNat_ofNat,
        Nat.mod_eq_of_lt (by omega), hexponent]

theorem unpack_toDouble {b : Binary} (h : b.Canonical) (he : b.exponent ≤ 971) :
    b.toDouble.toModel.unpack = b.unpacked := by
  have hb := ofFloat_toDouble h he
  rw [unpack_of_isFinite, hb]
  rw [isFinite_iff, hb]
  exact he

/-! ## Opposite doubles -/

def Binary.opposite (b : Binary) : Binary := { b with negative := !b.negative }

theorem unpacked_neg (b : Binary) : b.unpacked.neg = b.opposite.unpacked := by
  have hsign : -b.sign = b.opposite.sign := by
    unfold Binary.sign Binary.opposite
    cases b.negative <;> rfl
  have hopposite : b.opposite.unpacked
      = if h : b.mantissa = 0 then UnpackedFloat.zero b.opposite.sign
        else .finite b.opposite.sign b.mantissa b.exponent (Nat.pos_of_ne_zero h) := rfl
  rw [hopposite, ← hsign, Binary.unpacked]
  split <;> rfl

theorem ofFloat_neg {x : Float} (h : x.isFinite = true) :
    Binary.ofFloat (-x) = (Binary.ofFloat x).opposite := by
  obtain ⟨hm, hb, hf⟩ := canonical_ofFloat x
  have hdouble : -x = (Binary.ofFloat x).opposite.toDouble := by
    rw [Binary.toDouble, ← unpacked_neg, ← unpack_of_isFinite h]
    rfl
  rw [hdouble]
  exact ofFloat_toDouble ⟨hm, hb, hf⟩ ((isFinite_iff x).mp h)

theorem isFinite_neg {x : Float} (h : x.isFinite = true) : (-x).isFinite = true := by
  rw [isFinite_iff, ofFloat_neg h]
  exact (isFinite_iff x).mp h

end QueryReview.Decimal
