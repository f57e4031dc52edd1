-- Where a search at the starts of words ends, and where a word ends.
import QueryReview.Proofs.Text.Blank
import QueryReview.Text.Word

namespace QueryReview.Text

theorem wordEnds_iff {cs : List Char} :
    wordEnds cs = true ↔ ∀ c ∈ cs.head?, isWordChar c = false := by
  cases cs with
  | nil => simp [wordEnds]
  | cons c cs => simp [wordEnds]

theorem wordMayStart_iff {before : Option Char} :
    wordMayStart before = true ↔ ∀ c ∈ before, isWordChar c = false := by
  cases before with
  | none => simp [wordMayStart]
  | some c => simp [wordMayStart]

theorem isWordChar_of_isAlphanum {c : Char} (h : c.isAlphanum = true) : isWordChar c = true := by
  have hbelow : ∀ last : Char, last.toNat < 0x80 → c.val ≤ last.val → c.toNat < 0x80 :=
    fun last hlast hle => Nat.lt_of_le_of_lt (UInt32.le_iff_toNat_le.mp hle) hlast
  have hascii : c.toNat < 0x80 := by
    rcases Bool.or_eq_true_iff.mp h with halpha | hdigit
    · rcases Bool.or_eq_true_iff.mp halpha with hupper | hlower
      · exact hbelow 'Z' (by decide) (of_decide_eq_true hupper).2
      · exact hbelow 'z' (by decide) (of_decide_eq_true (Bool.and_eq_true_iff.mp hlower).2)
    · exact hbelow '9' (by decide) (of_decide_eq_true (Bool.and_eq_true_iff.mp hdigit).2)
  rw [isWordChar, if_pos hascii, h, Bool.true_or]

/-- No white space is a part of a word. -/
theorem isWordChar_of_isBlank {c : Char} (h : isBlank c = true) : isWordChar c = false := by
  have hlow : ∀ n ∈ List.range 0x80,
      isBlank (Char.ofNat n) = true → isWordChar (Char.ofNat n) = false := by decide +kernel
  have hapart : ∀ p ∈ blankRanges, ∀ q ∈ wordRanges, p.2 < q.1 ∨ q.2 < p.1 := by decide +kernel
  by_cases hascii : c.toNat < 0x80
  · have hchar := hlow c.toNat (List.mem_range.mpr hascii)
    rw [c.ofNat_toNat] at hchar
    exact hchar h
  · rw [isWordChar, if_neg hascii, ← Bool.not_eq_true]
    intro hword
    obtain ⟨p, hp, hfrom, hto⟩ := Ranges.exists_of_has h
    obtain ⟨q, hq, hfrom', hto'⟩ := Ranges.exists_of_has hword
    rcases hapart p hp q hq with hlt | hlt <;> omega

/-- What stands in front of a place behind a first character. -/
theorem getLast?_cons_or (c : Char) (front : List Char) (before : Option Char) :
    (c :: front).getLast?.or before = front.getLast?.or (some c) := by
  rw [List.getLast?_cons]
  cases front.getLast? <;> rfl

/-- Some place passes the test: what stands in front of it ends no word, and what stands behind it
passes. -/
theorem anyWordStart_iff {test : List Char → Bool} (ht : test [] = false) {before : Option Char}
    {cs : List Char} :
    anyWordStart test before cs = true ↔ ∃ front here, cs = front ++ here ∧
      wordMayStart (front.getLast?.or before) = true ∧ test here = true := by
  induction cs generalizing before with
  | nil =>
    refine iff_of_false (by simp [anyWordStart]) ?_
    rintro ⟨front, here, hnil, _, hhere⟩
    obtain ⟨_, rfl⟩ := List.append_eq_nil_iff.mp hnil.symm
    rw [ht] at hhere
    cases hhere
  | cons c cs ih =>
    rw [anyWordStart, Bool.or_eq_true, Bool.and_eq_true, ih]
    constructor
    · rintro (⟨hbefore, hhere⟩ | ⟨front, here, rfl, hfront, hhere⟩)
      · exact ⟨[], c :: cs, rfl, hbefore, hhere⟩
      · exact ⟨c :: front, here, rfl, (getLast?_cons_or c front before).symm ▸ hfront, hhere⟩
    · rintro ⟨front, here, hcs, hfront, hhere⟩
      cases front with
      | nil =>
        subst hcs
        exact .inl ⟨hfront, hhere⟩
      | cons d front =>
        obtain ⟨rfl, rfl⟩ := List.cons.inj hcs
        exact .inr ⟨front, here, rfl, getLast?_cons_or c front before ▸ hfront, hhere⟩

/-- A search starts alike behind any two characters that a word may follow. -/
theorem anyWordStart_congr {test : List Char → Bool} {before before' : Option Char}
    (h : wordMayStart before = wordMayStart before') (cs : List Char) :
    anyWordStart test before cs = anyWordStart test before' cs := by
  cases cs with
  | nil => rfl
  | cons c cs => rw [anyWordStart, anyWordStart, h]

/-- A test that fails at every place of the front looks for its place behind it. -/
theorem anyWordStart_skip {test : List Char → Bool} {front : List Char}
    (hf : ∀ c ∈ front, ∀ more, test (c :: more) = false) (before : Option Char)
    (rest : List Char) :
    anyWordStart test before (front ++ rest)
      = anyWordStart test (front.getLast?.or before) rest := by
  induction front generalizing before with
  | nil => rfl
  | cons c front ih =>
    rw [List.forall_mem_cons] at hf
    rw [List.cons_append, anyWordStart, hf.1, Bool.and_false, Bool.false_or, ih hf.2,
      getLast?_cons_or]

variable {α : Type} {read : List Char → Option α} {k : Char}

/-- The answer right where the search starts. -/
theorem firstAtWordStart_here {before : Option Char} (hb : wordMayStart before = true)
    {rest : List Char} {a : α} (hread : read (k :: rest) = some a) :
    firstAtWordStart read before (k :: rest) = some a := by
  rw [firstAtWordStart, if_pos hb, hread]

/-- A reader that takes nothing but what starts with `k` goes past all other characters. -/
theorem firstAtWordStart_skip (hk : ∀ c more, c ≠ k → read (c :: more) = none)
    {front : List Char} (hf : k ∉ front) (before : Option Char) (rest : List Char) :
    firstAtWordStart read before (front ++ rest)
      = firstAtWordStart read (front.getLast?.or before) rest := by
  induction front generalizing before with
  | nil => rfl
  | cons c front ih =>
    rw [List.mem_cons, not_or] at hf
    have hnone : (if wordMayStart before then read (c :: (front ++ rest)) else none) = none := by
      split
      · exact hk c _ (Ne.symm hf.1)
      · rfl
    rw [List.cons_append, firstAtWordStart, hnone]
    dsimp only
    rw [ih hf.2, getLast?_cons_or]

theorem firstAtWordStart_none (hk : ∀ c more, c ≠ k → read (c :: more) = none) {cs : List Char}
    (hcs : k ∉ cs) (before : Option Char) : firstAtWordStart read before cs = none := by
  have h := firstAtWordStart_skip hk hcs before []
  rwa [List.append_nil] at h

/-- The answer at the first place where there may be one. -/
theorem firstAtWordStart_found (hk : ∀ c more, c ≠ k → read (c :: more) = none)
    {front rest : List Char} (hf : k ∉ front) {before : Option Char}
    (hb : wordMayStart (front.getLast?.or before) = true) {a : α}
    (hread : read (k :: rest) = some a) :
    firstAtWordStart read before (front ++ k :: rest) = some a := by
  rw [firstAtWordStart_skip hk hf]
  exact firstAtWordStart_here hb hread

end QueryReview.Text
