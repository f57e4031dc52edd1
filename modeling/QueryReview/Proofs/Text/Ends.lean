-- What is left of a text when the characters at its end, or at its start, are dropped as long as
-- they pass a test. White space is taken off in this way, and so is a character that is repeated at
-- the end.
import QueryReview.Text.Find

namespace QueryReview.Text

variable {p : Char → Bool}

/-- Dropping from the end stops at the last character that stays: behind it stands nothing but what
is dropped. -/
theorem reverse_dropWhile_eq_iff {cs core : List Char} :
    (cs.reverse.dropWhile p).reverse = core ↔
      ∃ tail, cs = core ++ tail ∧ (∀ c ∈ tail, p c = true) ∧ ∀ c ∈ core.getLast?, p c = false := by
  constructor
  · rintro rfl
    refine ⟨(cs.reverse.takeWhile p).reverse, ?_, ?_, ?_⟩
    · rw [← List.reverse_append, List.takeWhile_append_dropWhile, List.reverse_reverse]
    · intro c hc
      exact List.all_eq_true.mp List.all_takeWhile c (List.mem_reverse.mp hc)
    · intro c hc
      have hhead := List.head?_dropWhile_not p cs.reverse
      rw [List.getLast?_reverse, Option.mem_def] at hc
      rw [hc] at hhead
      simpa using hhead
  · rintro ⟨tail, rfl, htail, hlast⟩
    rw [List.reverse_append, List.dropWhile_append_of_pos (by simpa using htail)]
    rcases List.eq_nil_or_concat core with rfl | ⟨front, last, rfl⟩
    · rfl
    · simp [hlast last (by simp)]

/-- A character that stays keeps all that stands before it. -/
theorem exists_reverse_dropWhile_append {c : Char} (hc : p c = false) (front back : List Char) :
    ∃ more, ((front ++ c :: back).reverse.dropWhile p).reverse = front ++ c :: more := by
  obtain ⟨tail, hback, htail, hlast⟩ :=
    reverse_dropWhile_eq_iff.mp (Eq.refl (back.reverse.dropWhile p).reverse)
  refine ⟨(back.reverse.dropWhile p).reverse, reverse_dropWhile_eq_iff.mpr ⟨tail, ?_, htail, ?_⟩⟩
  · rw [List.append_assoc, List.cons_append, ← hback]
  · intro d hd
    rw [List.getLast?_append, List.getLast?_cons] at hd
    cases hmore : (back.reverse.dropWhile p).reverse.getLast? with
    | none =>
      rw [hmore] at hd
      cases hd
      exact hc
    | some e =>
      rw [hmore] at hd
      cases hd
      exact hlast e hmore

/-- The run at the start of a text, and what is left behind it. -/
theorem takeWhile_dropWhile_iff {cs run rest : List Char} :
    (cs.takeWhile p = run ∧ cs.dropWhile p = rest) ↔
      cs = run ++ rest ∧ (∀ c ∈ run, p c = true) ∧ ∀ c ∈ rest.head?, p c = false := by
  constructor
  · rintro ⟨rfl, rfl⟩
    refine ⟨List.takeWhile_append_dropWhile.symm, List.all_eq_true.mp List.all_takeWhile, ?_⟩
    intro c hc
    have hhead := List.head?_dropWhile_not p cs
    rw [Option.mem_def] at hc
    rw [hc] at hhead
    simpa using hhead
  · rintro ⟨rfl, hrun, hrest⟩
    rw [List.takeWhile_append_of_pos hrun, List.dropWhile_append_of_pos hrun]
    cases rest with
    | nil => simp
    | cons c rest => simp [hrest c rfl]

/-! ## One character -/

theorem dropEnd_append_cons {c d : Char} (hc : c ≠ d) (front back : List Char) :
    ∃ more, dropEnd d (front ++ c :: back) = front ++ c :: more := by
  have hkept : (c == d) = false := beq_false_of_ne hc
  exact exists_reverse_dropWhile_append (p := (· == d)) hkept front back

/-- What is left is the text up to the last character that is another one. -/
theorem dropEnd_eq_iff {d : Char} {cs core : List Char} :
    dropEnd d cs = core ↔ ∃ tail, cs = core ++ tail ∧ (∀ c ∈ tail, c = d) ∧
      ∀ c ∈ core.getLast?, c ≠ d := by
  unfold dropEnd
  rw [reverse_dropWhile_eq_iff]
  simp

/-- Nothing but the dropped character is missing. -/
theorem exists_dropEnd_append (d : Char) (cs : List Char) :
    ∃ tail, cs = dropEnd d cs ++ tail ∧ ∀ c ∈ tail, c = d := by
  obtain ⟨tail, hcs, htail, _⟩ := dropEnd_eq_iff.mp (Eq.refl (dropEnd d cs))
  exact ⟨tail, hcs, htail⟩

end QueryReview.Text
