-- The laws of comparing words without their case. Two texts say the same word when they fold to the
-- same letters, and a word given in capitals is looked for in just this sense.
import Mathlib.Data.List.Basic
import QueryReview.Text.Fold

namespace QueryReview.Text

/-- The simple case folding of a character, as far as it gives an ASCII letter: a capital folds to
its small letter, the long s to `s` and the kelvin sign to `k`. What folds to another letter stays
as it is, since it is the same as no ASCII letter either way. -/
def folded (c : Char) : Char := if c = longS then 's' else if c = kelvin then 'k' else c.toLower

/-- The text is the word, in any case of its letters. -/
def Says (word cs : List Char) : Prop := cs.map folded = word.map folded

/-- A character that a searched word may have: one of ASCII in front of the small letters. -/
def isCapital (c : Char) : Bool := c.toNat < 0x61

theorem lt_of_isCapital {w : Char} (hw : isCapital w = true) : w.toNat < 0x61 :=
  of_decide_eq_true hw

theorem ne_of_isCapital {w c : Char} (hw : isCapital w = true) (hc : 0x61 ≤ c.toNat) : w ≠ c := by
  rintro rfl
  exact absurd (lt_of_isCapital hw) (Nat.not_lt.mpr hc)

theorem folded_of_isCapital {w : Char} (hw : isCapital w = true) : folded w = w.toLower := by
  rw [folded, if_neg (ne_of_isCapital hw (by decide)), if_neg (ne_of_isCapital hw (by decide))]

theorem toNat_toLower (c : Char) :
    c.toLower.toNat = if 65 ≤ c.toNat ∧ c.toNat ≤ 90 then c.toNat + 32 else c.toNat := by
  have hval : c.val.toNat = c.toNat := rfl
  unfold Char.toLower
  split
  · rename_i h
    simp only [ge_iff_le, UInt32.le_iff_toNat_le, hval] at h
    have hcapital : 65 ≤ c.toNat ∧ c.toNat ≤ 90 := h
    have hsum : (c.val + ('a'.val - 'A'.val)).toNat = c.toNat + 32 := by
      have hshift : ('a'.val - 'A'.val).toNat = 32 := rfl
      rw [UInt32.toNat_add, hval, hshift]
      exact Nat.mod_eq_of_lt (by omega)
    rw [if_pos hcapital]
    exact hsum
  · rename_i h
    simp only [ge_iff_le, UInt32.le_iff_toNat_le, hval] at h
    have hother : ¬ (65 ≤ c.toNat ∧ c.toNat ≤ 90) := h
    rw [if_neg hother]

/-- What has the small form of a capital is the capital or its small form. -/
theorem toLower_eq_iff {w : Char} (hw : isCapital w = true) (c : Char) :
    c.toLower = w.toLower ↔ c = w ∨ c = w.toLower := by
  have hlt := lt_of_isCapital hw
  simp only [← Char.toNat_inj, toNat_toLower]
  split
  · split
    · omega
    · omega
  · split
    · omega
    · omega

/-- Different capitals have different small forms. -/
theorem toLower_inj {v w : Char} (hv : isCapital v = true) (hw : isCapital w = true) :
    v.toLower = w.toLower ↔ v = w := by
  have hlt := lt_of_isCapital hv
  rw [toLower_eq_iff hw, or_iff_left_iff_imp, ← Char.toNat_inj, ← Char.toNat_inj, toNat_toLower]
  split
  · omega
  · exact id

/-- A character beyond ASCII is no capital and no small form of one. -/
theorem ne_toLower_of_isCapital {w c : Char} (hw : isCapital w = true) (hc : 0x80 ≤ c.toNat) :
    c ≠ w.toLower := by
  have hlt := lt_of_isCapital hw
  rw [ne_eq, ← Char.toNat_inj, toNat_toLower]
  split
  · omega
  · omega

theorem foldsTo_iff {w : Char} (hw : isCapital w = true) (c : Char) :
    foldsTo w c = true ↔ folded c = folded w := by
  have hbeyond : ∀ d : Char, 0x80 ≤ d.toNat → d ≠ w ∧ d ≠ w.toLower :=
    fun d hd => ⟨(ne_of_isCapital hw (by omega)).symm, ne_toLower_of_isCapital hw hd⟩
  rw [folded_of_isCapital hw]
  unfold foldsTo folded
  simp only [Bool.or_eq_true, Bool.and_eq_true, beq_iff_eq]
  by_cases hs : c = longS
  · have hcapital : 's' = w.toLower ↔ 'S' = w := toLower_inj (v := 'S') (by decide) hw
    have hk : longS ≠ kelvin := by decide
    subst hs
    rw [if_pos rfl, hcapital]
    simp [hbeyond longS (by decide), hk, eq_comm]
  · by_cases hk : c = kelvin
    · have hcapital : 'k' = w.toLower ↔ 'K' = w := toLower_inj (v := 'K') (by decide) hw
      subst hk
      rw [if_neg hs, if_pos rfl, hcapital]
      simp [hbeyond kelvin (by decide), hs, eq_comm]
    · rw [if_neg hs, if_neg hk, toLower_eq_iff hw]
      simp [hs, hk]

/-! ## A word at the start of a text -/

theorem says_nil_iff {cs : List Char} : Says [] cs ↔ cs = [] := List.map_eq_nil_iff

/-- A text starts with a word when its first letter is the first one of the word and the text
behind it starts with the rest of the word. -/
theorem exists_says_cons {w c : Char} {word cs rest : List Char} :
    (∃ said, c :: cs = said ++ rest ∧ Says (w :: word) said)
      ↔ folded c = folded w ∧ ∃ said, cs = said ++ rest ∧ Says word said := by
  constructor
  · rintro ⟨said, hcs, hsaid⟩
    cases said with
    | nil => cases hsaid
    | cons d said =>
      obtain ⟨rfl, rfl⟩ := List.cons.inj hcs
      obtain ⟨hfirst, hmore⟩ := List.cons.inj hsaid
      exact ⟨hfirst, said, rfl, hmore⟩
  · rintro ⟨hfirst, said, rfl, hsaid⟩
    refine ⟨c :: said, rfl, ?_⟩
    rw [Says, List.map_cons, List.map_cons, hfirst, hsaid]

/-- The word is found at the start of a text exactly when the text starts with what says it. -/
theorem afterWord?_eq_some_iff {word : List Char} (hw : word.all isCapital = true)
    {cs rest : List Char} :
    afterWord? word cs = some rest ↔ ∃ said, cs = said ++ rest ∧ Says word said := by
  induction word generalizing cs with
  | nil => simp [afterWord?, says_nil_iff]
  | cons w word ih =>
    rw [List.all_cons, Bool.and_eq_true] at hw
    cases cs with
    | nil => simp [afterWord?, Says]
    | cons c cs =>
      rw [exists_says_cons, ← foldsTo_iff hw.1, ← ih hw.2, afterWord?]
      by_cases hfold : foldsTo w c = true
      · simp [hfold]
      · simp [hfold]

end QueryReview.Text
