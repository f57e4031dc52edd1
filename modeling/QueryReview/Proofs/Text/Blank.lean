-- The laws of taking white space off a text.
import QueryReview.Proofs.Text.Ends
import QueryReview.Text.Blank
import QueryReview.Text.Digit

namespace QueryReview.Text

theorem trimEnd_append_blank (cs : List Char) {x : Char} (hx : isBlank x = true) :
    trimEnd (cs ++ [x]) = trimEnd cs := by
  simp [trimEnd, hx]

/-- A character that is no white space keeps all that stands before it. -/
theorem trimEnd_append_cons {c : Char} (hc : isBlank c = false) (front back : List Char) :
    ∃ more, trimEnd (front ++ c :: back) = front ++ c :: more :=
  exists_reverse_dropWhile_append hc front back

/-- What trimming leaves is the text up to its last character that is no white space. -/
theorem trimEnd_eq_iff {cs core : List Char} :
    trimEnd cs = core ↔ ∃ gap, cs = core ++ gap ∧ (∀ c ∈ gap, isBlank c = true) ∧
      ∀ c ∈ core.getLast?, isBlank c = false :=
  reverse_dropWhile_eq_iff

theorem trimStart_append_blank (cs : List Char) {x : Char} (hx : isBlank x = true) :
    trimStart (cs ++ [x]) = if trimStart cs = [] then [] else trimStart cs ++ [x] := by
  unfold trimStart
  induction cs with
  | nil => simp [hx]
  | cons c cs ih =>
    by_cases hc : isBlank c = true
    · simp only [List.cons_append, List.dropWhile_cons, hc, if_true]
      exact ih
    · simp [hc]

/-- White space behind a text is no part of the trimmed text. -/
theorem trim_append_blank (cs : List Char) {x : Char} (hx : isBlank x = true) :
    trim (cs ++ [x]) = trim cs := by
  unfold trim
  rw [trimStart_append_blank cs hx]
  split
  · rename_i h
    rw [h]
  · exact trimEnd_append_blank _ hx

/-- A text is trimmed when no white space stands at its ends. -/
theorem trim_eq_self {cs : List Char} (hs : ∀ c ∈ cs.head?, isBlank c = false)
    (he : ∀ c ∈ cs.getLast?, isBlank c = false) : trim cs = cs := by
  have hstart : trimStart cs = cs := by
    cases cs with
    | nil => rfl
    | cons c cs => simp [trimStart, hs c rfl]
  rw [trim, hstart]
  rcases List.eq_nil_or_concat cs with rfl | ⟨init, last, rfl⟩
  · rfl
  · rw [List.concat_eq_append] at he ⊢
    have hlast := he last (by simp)
    simp [trimEnd, hlast]

theorem head?_trimStart (cs : List Char) : ∀ c ∈ (trimStart cs).head?, isBlank c = false := by
  intro c hc
  have h := List.head?_dropWhile_not isBlank cs
  rw [Option.mem_def] at hc
  unfold trimStart at hc
  simpa [hc] using h

theorem getLast?_trimEnd {cs : List Char} : ∀ c ∈ (trimEnd cs).getLast?, isBlank c = false := by
  obtain ⟨_, _, _, hlast⟩ := trimEnd_eq_iff.mp (Eq.refl (trimEnd cs))
  exact hlast

theorem trimEnd_isPrefixOf (cs : List Char) : trimEnd cs <+: cs := by
  obtain ⟨gap, hcs, _⟩ := trimEnd_eq_iff.mp (Eq.refl (trimEnd cs))
  exact ⟨gap, hcs.symm⟩

/-- What trimming takes off the ends is white space. -/
theorem exists_blank_ends (cs : List Char) :
    ∃ front back, cs = front ++ (trim cs ++ back) ∧ (∀ c ∈ front, isBlank c = true) ∧
      ∀ c ∈ back, isBlank c = true := by
  have hstart : cs.takeWhile isBlank ++ trimStart cs = cs := List.takeWhile_append_dropWhile
  obtain ⟨back, hend, hback, _⟩ := trimEnd_eq_iff.mp (Eq.refl (trimEnd (trimStart cs)))
  refine ⟨cs.takeWhile isBlank, back, ?_, List.all_eq_true.mp List.all_takeWhile, hback⟩
  rw [trim, ← hend, hstart]

/-- What trimming leaves is a part of the text. -/
theorem trim_isInfixOf (cs : List Char) : trim cs <:+: cs :=
  (trimEnd_isPrefixOf _).isInfix.trans (List.dropWhile_suffix isBlank).isInfix

theorem head?_trim {cs : List Char} : ∀ c ∈ (trim cs).head?, isBlank c = false := by
  intro c hc
  obtain ⟨more, hmore⟩ := trimEnd_isPrefixOf (trimStart cs)
  apply head?_trimStart cs
  rw [← hmore, List.head?_append, Option.mem_def]
  rw [Option.mem_def] at hc
  rw [trim] at hc
  rw [hc]
  rfl

theorem trim_cons_blank {x : Char} (hx : isBlank x = true) (cs : List Char) :
    trim (x :: cs) = trim cs := by
  simp [trim, trimStart, hx]

/-- A trimmed text stays so when something is put behind it that does not end with white space. -/
theorem trim_append {cs ds : List Char} (h : trim cs = cs) (hne : cs ≠ [])
    (hd : ∃ c ∈ ds.getLast?, isBlank c = false) : trim (cs ++ ds) = cs ++ ds := by
  obtain ⟨last, hlast, hblank⟩ := hd
  apply trim_eq_self
  · obtain ⟨c, front, rfl⟩ := List.exists_cons_of_ne_nil hne
    have hhead : ∀ d ∈ (trim (c :: front)).head?, isBlank d = false := head?_trim
    rwa [h] at hhead
  · intro c hc
    rw [List.getLast?_append, hlast] at hc
    cases hc
    exact hblank

theorem trim_trim (cs : List Char) : trim (trim cs) = trim cs :=
  trim_eq_self head?_trim getLast?_trimEnd

theorem trim_blanks_append {front : List Char} (h : ∀ c ∈ front, isBlank c = true)
    (cs : List Char) : trim (front ++ cs) = trim cs := by
  induction front with
  | nil => rfl
  | cons c front ih =>
    rw [List.forall_mem_cons] at h
    rw [List.cons_append, trim_cons_blank h.1, ih h.2]

theorem trim_append_blanks {back : List Char} (h : ∀ c ∈ back, isBlank c = true)
    (cs : List Char) : trim (cs ++ back) = trim cs := by
  induction back generalizing cs with
  | nil => rw [List.append_nil]
  | cons c back ih =>
    rw [List.forall_mem_cons] at h
    rw [← List.singleton_append, ← List.append_assoc, ih h.2, trim_append_blank cs h.1]

/-! ## Texts that begin and end with something to see -/

/-- The text has a first and a last character that are no white space. -/
structure Firm (cs : List Char) : Prop where
  first : ∃ c ∈ cs.head?, isBlank c = false
  last : ∃ c ∈ cs.getLast?, isBlank c = false

theorem Firm.trim {cs : List Char} (h : Firm cs) : trim cs = cs := by
  obtain ⟨⟨first, hfirst, hf⟩, ⟨last, hlast, hl⟩⟩ := h
  apply trim_eq_self
  · rw [hfirst]
    rintro c ⟨⟩
    exact hf
  · rw [hlast]
    rintro c ⟨⟩
    exact hl

theorem firm_of_no_blank {cs : List Char} (hne : cs ≠ []) (h : ∀ c ∈ cs, isBlank c = false) :
    Firm cs :=
  ⟨⟨_, List.head?_eq_some_head hne, h _ (List.head_mem hne)⟩,
    ⟨_, List.getLast?_eq_some_getLast hne, h _ (List.getLast_mem hne)⟩⟩

/-- Anything may stand between two such texts. -/
theorem Firm.around {front back : List Char} (hf : Firm front) (hb : Firm back)
    (between : List Char) : Firm (front ++ (between ++ back)) := by
  obtain ⟨first, hfirst, hf⟩ := hf.first
  obtain ⟨last, hlast, hl⟩ := hb.last
  refine ⟨⟨first, ?_, hf⟩, ⟨last, ?_, hl⟩⟩
  · rw [Option.mem_def] at hfirst ⊢
    rw [List.head?_append, hfirst]
    rfl
  · rw [Option.mem_def] at hlast ⊢
    rw [List.getLast?_append, List.getLast?_append, hlast]
    rfl

/-! ## Digits are no white space -/

theorem Ranges.exists_of_has {ranges : Ranges} {n : Nat} (h : ranges.has n = true) :
    ∃ p ∈ ranges, p.1 ≤ n ∧ n ≤ p.2 := by
  induction ranges with
  | nil => cases h
  | cons p rest ih =>
    obtain ⟨low, high⟩ := p
    unfold has at h
    split at h
    · cases h
    · rename_i hlow
      rw [Bool.or_eq_true, decide_eq_true_eq] at h
      rcases h with h | h
      · exact ⟨(low, high), List.mem_cons_self, Nat.le_of_not_lt hlow, h⟩
      · obtain ⟨q, hq, hn⟩ := ih h
        exact ⟨q, List.mem_cons_of_mem _ hq, hn⟩

theorem digitRanges_apart :
    ∀ p ∈ digitRanges, ∀ q ∈ blankRanges, p.2 < q.1 ∨ q.2 < p.1 := by
  decide

theorem isBlank_of_isAnyDigit {c : Char} (h : isAnyDigit c = true) : isBlank c = false := by
  rw [← Bool.not_eq_true]
  intro hblank
  obtain ⟨q, hq, hlow, hhigh⟩ := Ranges.exists_of_has hblank
  have hdigit : ∃ p ∈ digitRanges, p.1 ≤ c.toNat ∧ c.toNat ≤ p.2 := by
    unfold isAnyDigit at h
    split at h
    · simp only [Char.isDigit, Bool.and_eq_true, decide_eq_true_eq] at h
      exact ⟨(0x30, 0x39), by decide, h.1, h.2⟩
    · exact Ranges.exists_of_has h
  obtain ⟨p, hp, hlow', hhigh'⟩ := hdigit
  rcases digitRanges_apart p hp q hq with hlt | hlt <;> omega

end QueryReview.Text
