-- A reader of statements that goes from left to right, one character after the other, and knows
-- at each place whether it stands in code, in a literal or in a comment. The two passes of the
-- verdict agree with it up to the first literal in which a backslash stands before a line feed:
-- the passes find no literal there, and take its opening quote for code.
import QueryReview.Proofs.Statement.Pieces

namespace QueryReview.Statement

open Piece

/-- Where the reader stands. -/
inductive Place
  | code
  | literal (quote : Char)
  | lineComment
  | blockComment
deriving DecidableEq, Repr

/-- What the reader takes a character for. The quotes of a literal belong to it. -/
inductive Part
  | code
  | literal
  /-- It stands in a literal, behind a backslash. -/
  | escaped
deriving DecidableEq, Repr

/-- The characters outside the comments, each with its part. A literal runs to the next quote of
its kind that is not escaped, or to the end. A line comment runs to the end of the line, which is
code again, and a block comment to the first `*/`, or to the end. -/
def marks : Place → List Char → List (Char × Part)
  | _, [] => []
  | .code, '-' :: '-' :: cs => marks .lineComment cs
  | .code, '/' :: '*' :: cs => marks .blockComment cs
  | .code, c :: cs =>
    if isQuote c then (c, .literal) :: marks (.literal c) cs else (c, .code) :: marks .code cs
  | .literal q, '\\' :: c :: cs => ('\\', .literal) :: (c, .escaped) :: marks (.literal q) cs
  | .literal q, c :: cs => (c, .literal) :: marks (if c = q then .code else .literal q) cs
  | .lineComment, c :: cs =>
    if c = '\n' then (c, .code) :: marks .code cs else marks .lineComment cs
  | .blockComment, '*' :: '/' :: cs => marks .code cs
  | .blockComment, _ :: cs => marks .blockComment cs

/-! ## The first piece, as the reader takes it -/

theorem marks_of_no_comment {c : Char} {cs : List Char} (hc : commentAt? (c :: cs) = none) :
    marks .code (c :: cs) = if isQuote c then (c, .literal) :: marks (.literal c) cs
      else (c, .code) :: marks .code cs := by
  rw [marks.eq_def]
  split
  · rename_i h
    cases h
  · rename_i h
    cases h
    simp [commentAt?] at hc
  · rename_i h
    cases h
    simp [commentAt?] at hc
  · rename_i h
    cases h
    rfl
  all_goals
    rename_i h _
    cases h

theorem marks_lineComment (cs : List Char) :
    marks .lineComment cs = marks .code (cs.dropWhile (· != '\n')) := by
  induction cs with
  | nil => rfl
  | cons c cs ih =>
    by_cases hc : c = '\n'
    · subst hc
      have hnone : commentAt? ('\n' :: cs) = none := by simp [commentAt?]
      simp [marks, marks_of_no_comment hnone, isQuote]
    · simp [marks, hc, ih]

theorem marks_blockComment (cs : List Char) :
    marks .blockComment cs = marks .code (blockBody cs).2 := by
  fun_induction blockBody cs with
  | case1 => rfl
  | case2 cs => simp [marks]
  | case3 c cs hne body rest hb ih =>
    rw [hb] at ih
    rw [← ih]
    rw [marks.eq_def]
    simp_all

theorem marks_literal_cons {c : Char} (hc : c ≠ '\\') (q : Char) (cs : List Char) :
    marks (.literal q) (c :: cs)
      = (c, .literal) :: marks (if c = q then .code else .literal q) cs := by
  rw [marks.eq_def]
  split
  · rename_i h
    cases h
  all_goals
    rename_i h₁ h₂
    cases h₁
  · cases h₂
    exact absurd rfl hc
  · cases h₂
    rfl

/-- A literal that the passes find is one for the reader too. -/
theorem marks_of_literalBody? {q : Char} (hq : isQuote q = true) {cs body after : List Char}
    (h : literalBody? q cs = some (body, after)) :
    ∃ ms, marks (.literal q) cs = ms ++ marks .code after ∧ ∀ m ∈ ms, m.2 ≠ .code := by
  have hqb : q ≠ '\\' := (ne_of_isQuote hq (by decide)).symm
  fun_induction literalBody? q cs generalizing body after with
  | case1 => cases h
  | case2 =>
    cases h
    refine ⟨[(q, .literal)], ?_, by simp⟩
    rw [marks_literal_cons hqb, if_pos rfl]
    rfl
  | case3 => cases h
  | case4 => cases h
  | case5 d ds hd hne ih =>
    obtain ⟨⟨b, r⟩, hb, he⟩ := Option.map_eq_some_iff.mp h
    obtain ⟨rfl, rfl⟩ := Prod.mk.inj he
    obtain ⟨ms, hm, hcode⟩ := ih hb
    refine ⟨('\\', .literal) :: (d, .escaped) :: ms, ?_, ?_⟩
    · simp [marks, hm]
    · simpa using hcode
  | case6 c cs hne hc ih =>
    obtain ⟨⟨b, r⟩, hb, he⟩ := Option.map_eq_some_iff.mp h
    obtain ⟨rfl, rfl⟩ := Prod.mk.inj he
    obtain ⟨ms, hm, hcode⟩ := ih hb
    refine ⟨(c, .literal) :: ms, ?_, ?_⟩
    · rw [marks_literal_cons hc, if_neg hne, hm]
      rfl
    · simpa using hcode

/-- A character of code behind a first character that is none. -/
theorem cons_eq_append_code {m : Char × Part} {ms before after : List (Char × Part)} {x : Char}
    (hm : m.2 ≠ .code) (h : m :: ms = before ++ (x, .code) :: after) :
    ∃ rest, before = m :: rest ∧ ms = rest ++ (x, .code) :: after := by
  cases before with
  | nil =>
    cases h
    exact absurd rfl hm
  | cons b rest =>
    cases h
    exact ⟨rest, rfl, rfl⟩

theorem append_eq_append_code {ms after before rest : List (Char × Part)} {x : Char}
    (hms : ∀ m ∈ ms, m.2 ≠ .code) (h : ms ++ rest = before ++ (x, .code) :: after) :
    ∃ more, before = ms ++ more ∧ rest = more ++ (x, .code) :: after := by
  induction ms generalizing before with
  | nil => exact ⟨before, rfl, h⟩
  | cons m ms ih =>
    obtain ⟨more, rfl, hmore⟩ := cons_eq_append_code (hms m List.mem_cons_self) h
    obtain ⟨more', rfl, hrest⟩ := ih (fun m' hm' => hms m' (List.mem_cons_of_mem _ hm')) hmore
    exact ⟨more', rfl, hrest⟩

/-- Where the passes find no literal, and the reader comes back to code, a line feed has been
escaped. -/
theorem escaped_feed_of_no_literal {q : Char} {cs : List Char} (h : literalBody? q cs = none)
    {before after : List (Char × Part)} {x : Char}
    (hm : marks (.literal q) cs = before ++ (x, .code) :: after) :
    ('\n', .escaped) ∈ before := by
  fun_induction literalBody? q cs generalizing before with
  | case1 => simp [marks] at hm
  | case2 => cases h
  | case3 hne =>
    simp [marks] at hm
    obtain ⟨_, _, hrest⟩ := cons_eq_append_code (by simp) hm
    simp at hrest
  | case4 ds hne =>
    simp only [marks] at hm
    obtain ⟨b₁, rfl, h₁⟩ := cons_eq_append_code (by simp) hm
    obtain ⟨b₂, rfl, _⟩ := cons_eq_append_code (by simp) h₁
    simp
  | case5 d ds hd hne ih =>
    simp only [marks] at hm
    obtain ⟨b₁, rfl, h₁⟩ := cons_eq_append_code (by simp) hm
    obtain ⟨b₂, rfl, h₂⟩ := cons_eq_append_code (by simp) h₁
    simp [ih (Option.map_eq_none_iff.mp h) h₂]
  | case6 c cs hne hc ih =>
    rw [marks_literal_cons hc, if_neg hne] at hm
    obtain ⟨b₁, rfl, h₁⟩ := cons_eq_append_code (by simp) hm
    simp [ih (Option.map_eq_none_iff.mp h) h₁]

end QueryReview.Statement
