-- The laws of the two passes over a statement, piece by piece: what stripping the comments and
-- emptying the literals make of a text that starts with a literal, a comment or a character of
-- code.
import QueryReview.Statement.Piece

namespace QueryReview.Statement

/-- Whatever is no quote is another character than the quote. -/
theorem ne_of_isQuote {q c : Char} (hq : isQuote q = true) (hc : isQuote c = false) : c ≠ q := by
  rintro rfl
  rw [hq] at hc
  cases hc

namespace Piece

theorem literalAt?_cases {cs after : List Char} {p : Piece} (h : literalAt? cs = some (p, after)) :
    ∃ q body tail, cs = q :: tail ∧ isQuote q = true ∧ literalBody? q tail = some (body, after) ∧
      p = literal q body := by
  cases cs with
  | nil => cases h
  | cons q tail =>
    by_cases hq : isQuote q = true
    · simp only [literalAt?, hq, if_true] at h
      obtain ⟨⟨body, rest⟩, hb, he⟩ := Option.map_eq_some_iff.mp h
      obtain ⟨rfl, rfl⟩ := Prod.mk.inj he
      exact ⟨q, body, tail, rfl, hq, hb, rfl⟩
    · simp [literalAt?, hq] at h

theorem literalAt?_cons {q : Char} {tail body after : List Char} (hq : isQuote q = true)
    (h : literalBody? q tail = some (body, after)) :
    literalAt? (q :: tail) = some (literal q body, after) := by
  simp [literalAt?, hq, h]

theorem literalAt?_eq_none {c : Char} {cs : List Char}
    (h : isQuote c = true → literalBody? c cs = none) : literalAt? (c :: cs) = none := by
  by_cases hq : isQuote c = true
  · simp [literalAt?, hq, h hq]
  · simp [literalAt?, hq]

/-- A comment opens with one of two marks, and neither is a quote. -/
theorem commentAt?_cases {cs after : List Char} {p : Piece} (h : commentAt? cs = some (p, after)) :
    (∃ text, p = comment text) ∧
      ((∃ tail, cs = '-' :: '-' :: tail ∧ after = tail.dropWhile (· != '\n')) ∨
        ∃ tail, cs = '/' :: '*' :: tail ∧ after = (blockBody tail).2) := by
  unfold commentAt? at h
  split at h
  · cases h
    exact ⟨⟨_, rfl⟩, Or.inl ⟨_, rfl, rfl⟩⟩
  · cases h
    exact ⟨⟨_, rfl⟩, Or.inr ⟨_, rfl, rfl⟩⟩
  · cases h

theorem commentAt?_of_quote {c : Char} {cs : List Char} (hq : isQuote c = true) :
    commentAt? (c :: cs) = none := by
  cases h : commentAt? (c :: cs) with
  | none => rfl
  | some r =>
    obtain ⟨_, ⟨tail, he, _⟩ | ⟨tail, he, _⟩⟩ := commentAt?_cases h
    · cases he
      exact absurd hq (by decide)
    · cases he
      exact absurd hq (by decide)

theorem literalBody?_quote (q : Char) (cs : List Char) :
    literalBody? q (q :: cs) = some ([], cs) := by
  rw [literalBody?.eq_def]
  simp

theorem literalBody?_cons {q c : Char} (hq : c ≠ q) (hb : c ≠ '\\') (cs : List Char) :
    literalBody? q (c :: cs) = (literalBody? q cs).map fun p => (c :: p.1, p.2) := by
  rw [literalBody?.eq_def]
  simp [hq, hb]

/-- A backslash takes the next character with it, but not a line feed. -/
theorem literalBody?_escape {q d : Char} (hq : '\\' ≠ q) (hd : d ≠ '\n') (ds : List Char) :
    literalBody? q ('\\' :: d :: ds)
      = (literalBody? q ds).map fun p => ('\\' :: d :: p.1, p.2) := by
  rw [literalBody?.eq_def]
  simp [hq, hd]

/-- A literal ends at the same quote, whatever follows it. -/
theorem literalBody?_append {q : Char} {cs body rest : List Char}
    (h : literalBody? q cs = some (body, rest)) (more : List Char) :
    literalBody? q (body ++ q :: more) = some (body, more) := by
  fun_induction literalBody? q cs generalizing body rest with
  | case1 => cases h
  | case2 =>
    cases h
    exact literalBody?_quote q more
  | case3 => cases h
  | case4 => cases h
  | case5 d ds hd hq ih =>
    obtain ⟨⟨b, r⟩, hb, he⟩ := Option.map_eq_some_iff.mp h
    obtain ⟨rfl, rfl⟩ := Prod.mk.inj he
    simp [literalBody?_escape hq hd, ih hb]
  | case6 c cs hq hc ih =>
    obtain ⟨⟨b, r⟩, hb, he⟩ := Option.map_eq_some_iff.mp h
    obtain ⟨rfl, rfl⟩ := Prod.mk.inj he
    simp [literalBody?_cons hq hc, ih hb]

/-! ## The first piece -/

theorem split_literal {cs after : List Char} {p : Piece} (h : literalAt? cs = some (p, after)) :
    split cs = p :: split after := by
  obtain ⟨q, body, tail, rfl, _⟩ := literalAt?_cases h
  rw [split]
  split
  · rename_i h'
    rw [h] at h'
    cases h'
    rfl
  · rename_i h'
    rw [h] at h'
    cases h'

theorem split_comment {cs after : List Char} {p : Piece} (h : commentAt? cs = some (p, after)) :
    split cs = p :: split after := by
  cases cs with
  | nil => cases h
  | cons c tail =>
    have hl : literalAt? (c :: tail) = none := by
      apply literalAt?_eq_none
      intro hq
      rw [commentAt?_of_quote hq] at h
      cases h
    rw [split]
    split
    · rename_i h'
      rw [hl] at h'
      cases h'
    · split
      · rename_i h'
        rw [h] at h'
        cases h'
        rfl
      · rename_i h'
        rw [h] at h'
        cases h'

theorem split_code {c : Char} {cs : List Char} (hl : literalAt? (c :: cs) = none)
    (hc : commentAt? (c :: cs) = none) : split (c :: cs) = code c :: split cs := by
  rw [split]
  split
  · rename_i h'
    rw [hl] at h'
    cases h'
  · split
    · rename_i h'
      rw [hc] at h'
      cases h'
    · rfl

theorem splitLiterals_literal {cs after : List Char} {p : Piece}
    (h : literalAt? cs = some (p, after)) : splitLiterals cs = p :: splitLiterals after := by
  obtain ⟨q, body, tail, rfl, _⟩ := literalAt?_cases h
  rw [splitLiterals]
  split
  · rename_i h'
    rw [h] at h'
    cases h'
    rfl
  · rename_i h'
    rw [h] at h'
    cases h'

theorem splitLiterals_code {c : Char} {cs : List Char} (hl : literalAt? (c :: cs) = none) :
    splitLiterals (c :: cs) = code c :: splitLiterals cs := by
  rw [splitLiterals]
  split
  · rename_i h'
    rw [hl] at h'
    cases h'
  · rfl

end Piece

open Piece

/-! ## What emptying the literals makes of the first piece -/

theorem maskLiterals_literal {q : Char} {cs body rest : List Char} (hq : isQuote q = true)
    (h : literalBody? q cs = some (body, rest)) (more : List Char) :
    maskLiterals (q :: body ++ q :: more) = q :: q :: maskLiterals more := by
  unfold maskLiterals
  rw [List.cons_append, splitLiterals_literal (literalAt?_cons hq (literalBody?_append h more))]
  rfl

theorem maskLiterals_of_not_quote {c : Char} (hq : isQuote c = false) (cs : List Char) :
    maskLiterals (c :: cs) = c :: maskLiterals cs := by
  have hl : literalAt? (c :: cs) = none := literalAt?_eq_none fun h => by simp [hq] at h
  unfold maskLiterals
  rw [splitLiterals_code hl]
  rfl

theorem maskLiterals_plain_append {front : List Char} (h : ∀ c ∈ front, isQuote c = false)
    (cs : List Char) : maskLiterals (front ++ cs) = front ++ maskLiterals cs := by
  induction front with
  | nil => rfl
  | cons c front ih =>
    rw [List.forall_mem_cons] at h
    rw [List.cons_append, maskLiterals_of_not_quote h.1, ih h.2, List.cons_append]

/-- A quote stays in its place, whether it opens a literal or not. -/
theorem maskLiterals_of_quote {q : Char} (hq : isQuote q = true) (cs : List Char) :
    ∃ more, maskLiterals (q :: cs) = q :: more := by
  unfold maskLiterals
  cases hb : literalBody? q cs with
  | none =>
    rw [splitLiterals_code (literalAt?_eq_none fun _ => hb)]
    exact ⟨_, rfl⟩
  | some r =>
    rw [splitLiterals_literal (literalAt?_cons hq hb)]
    exact ⟨_, rfl⟩

/-! ## What both passes make of the first piece -/

theorem bareCode_literal {q : Char} {cs body after : List Char} (hq : isQuote q = true)
    (h : literalBody? q cs = some (body, after)) :
    bareCode (q :: cs) = q :: q :: bareCode after := by
  have hstrip : stripComments (q :: cs) = q :: body ++ q :: stripComments after := by
    unfold stripComments
    rw [split_literal (literalAt?_cons hq h)]
    simp [withoutComment, text]
  unfold bareCode
  rw [hstrip, maskLiterals_literal hq h]

theorem bareCode_comment {cs after : List Char} {p : Piece} (h : commentAt? cs = some (p, after)) :
    bareCode cs = ' ' :: bareCode after := by
  obtain ⟨⟨words, rfl⟩, _⟩ := commentAt?_cases h
  have hstrip : stripComments cs = ' ' :: stripComments after := by
    unfold stripComments
    rw [split_comment h]
    rfl
  unfold bareCode
  rw [hstrip, maskLiterals_of_not_quote (by decide)]

theorem stripComments_code {c : Char} {cs : List Char} (hl : literalAt? (c :: cs) = none)
    (hc : commentAt? (c :: cs) = none) : stripComments (c :: cs) = c :: stripComments cs := by
  unfold stripComments
  rw [split_code hl hc]
  rfl

theorem bareCode_of_not_quote {c : Char} {cs : List Char} (hq : isQuote c = false)
    (hc : commentAt? (c :: cs) = none) : bareCode (c :: cs) = c :: bareCode cs := by
  have hl : literalAt? (c :: cs) = none := literalAt?_eq_none fun h => by simp [hq] at h
  unfold bareCode
  rw [stripComments_code hl hc, maskLiterals_of_not_quote hq]

theorem bareCode_of_quote {q : Char} {cs : List Char} (hq : isQuote q = true) :
    ∃ more, bareCode (q :: cs) = q :: more := by
  cases hb : literalBody? q cs with
  | none =>
    unfold bareCode
    rw [stripComments_code (literalAt?_eq_none fun _ => hb) (commentAt?_of_quote hq)]
    exact maskLiterals_of_quote hq _
  | some r => exact ⟨_, bareCode_literal hq hb⟩

end QueryReview.Statement
