-- The strict policy refuses a second statement. The reader from left to right says what a second
-- statement is, and the verdict sees it unless a literal in front of the semicolon holds a
-- backslash before a line feed. With such a literal a second statement can slip through.
import QueryReview.Proofs.Statement.Lexer
import QueryReview.Proofs.Text.Blank
import QueryReview.Proofs.Text.Find
import QueryReview.Statement.Verdict

namespace QueryReview.Statement

open Piece Text

/-- A character that makes a second statement behind a semicolon: neither white space nor another
semicolon. -/
def Telling (c : Char) : Prop := isBlank c = false ∧ c ≠ ';'

theorem telling_of_isQuote {c : Char} (hq : isQuote c = true) : Telling c := by
  simp only [isQuote, Bool.or_eq_true, beq_iff_eq] at hq
  rcases hq with rfl | rfl
  · exact ⟨by decide, by decide⟩
  · exact ⟨by decide, by decide⟩

/-! ## The reader and the two passes -/

/-- A comment is nothing to the reader. -/
theorem marks_of_commentAt? {cs after : List Char} {p : Piece}
    (h : commentAt? cs = some (p, after)) : marks .code cs = marks .code after := by
  obtain ⟨_, ⟨tail, rfl, rfl⟩ | ⟨tail, rfl, rfl⟩⟩ := commentAt?_cases h
  · rw [← marks_lineComment]
    simp [marks]
  · rw [← marks_blockComment]
    simp [marks]

/-- A literal that the passes find holds no code. -/
theorem marks_of_literal {q : Char} {cs body after : List Char} (hq : isQuote q = true)
    (h : literalBody? q cs = some (body, after)) :
    ∃ ms, marks .code (q :: cs) = ms ++ marks .code after ∧ ∀ m ∈ ms, m.2 ≠ .code := by
  obtain ⟨ms, hm, hcode⟩ := marks_of_literalBody? hq h
  refine ⟨(q, .literal) :: ms, ?_, ?_⟩
  · rw [marks_of_no_comment (commentAt?_of_quote hq), if_pos hq, hm]
    rfl
  · simpa using hcode

/-- The semicolon that the reader takes for code is one for the passes too, and they start anew
behind it. -/
theorem bareCode_of_semicolon {cs : List Char} {before after : List (Char × Part)}
    (hm : marks .code cs = before ++ (';', .code) :: after)
    (he : ('\n', .escaped) ∉ before) :
    ∃ front rest, bareCode cs = front ++ ';' :: bareCode rest ∧ marks .code rest = after := by
  fun_induction split cs generalizing before with
  | case1 => simp [marks] at hm
  | case2 c cs p rest hl ih =>
    obtain ⟨q, body, tail, hcs, hq, hb, _⟩ := literalAt?_cases hl
    obtain ⟨rfl, rfl⟩ := List.cons.inj hcs
    obtain ⟨ms, hms, hcode⟩ := marks_of_literal hq hb
    rw [hms] at hm
    obtain ⟨more, rfl, hmore⟩ := append_eq_append_code hcode hm
    obtain ⟨front, rest', hbare, hafter⟩ := ih hmore fun h => he (List.mem_append_right _ h)
    refine ⟨c :: c :: front, rest', ?_, hafter⟩
    rw [bareCode_literal hq hb, hbare]
    rfl
  | case3 c cs hl p rest hc ih =>
    rw [marks_of_commentAt? hc] at hm
    obtain ⟨front, rest', hbare, hafter⟩ := ih hm he
    refine ⟨' ' :: front, rest', ?_, hafter⟩
    rw [bareCode_comment hc, hbare]
    rfl
  | case4 c cs hl hc ih =>
    rw [marks_of_no_comment hc] at hm
    by_cases hq : isQuote c = true
    · -- A quote that opens no literal for the passes: the reader finds no code behind it.
      rw [if_pos hq] at hm
      obtain ⟨more, rfl, hmore⟩ := cons_eq_append_code (by simp) hm
      have hnone : literalBody? c cs = none := by simpa [literalAt?, hq] using hl
      have hesc := escaped_feed_of_no_literal hnone hmore
      exact absurd (List.mem_cons_of_mem _ hesc) he
    · rw [if_neg hq] at hm
      have hbare := bareCode_of_not_quote (by simpa using hq) hc
      cases before with
      | nil =>
        obtain ⟨hc', rfl⟩ := List.cons.inj hm
        obtain ⟨rfl, _⟩ := Prod.mk.inj hc'
        exact ⟨[], cs, hbare, rfl⟩
      | cons b before =>
        obtain ⟨rfl, hmore⟩ := List.cons.inj hm
        obtain ⟨front, rest', hrest, hafter⟩ := ih hmore fun h => he (List.mem_cons_of_mem _ h)
        refine ⟨c :: front, rest', ?_, hafter⟩
        rw [hbare, hrest]
        rfl

/-- Where the reader sees a telling character, in code or in a literal, the passes leave one. -/
theorem bareCode_of_telling {cs : List Char} {m : Char × Part} (hm : m ∈ marks .code cs)
    (ht : Telling m.1) : ∃ c ∈ bareCode cs, Telling c := by
  fun_induction split cs with
  | case1 => simp [marks] at hm
  | case2 c cs p rest hl ih =>
    obtain ⟨q, body, tail, hcs, hq, hb, _⟩ := literalAt?_cases hl
    obtain ⟨rfl, rfl⟩ := List.cons.inj hcs
    refine ⟨c, ?_, telling_of_isQuote hq⟩
    rw [bareCode_literal hq hb]
    exact List.mem_cons_self
  | case3 c cs hl p rest hc ih =>
    rw [marks_of_commentAt? hc] at hm
    obtain ⟨y, hy, hty⟩ := ih hm
    refine ⟨y, ?_, hty⟩
    rw [bareCode_comment hc]
    exact List.mem_cons_of_mem _ hy
  | case4 c cs hl hc ih =>
    by_cases hq : isQuote c = true
    · have hbare : ∃ more, bareCode (c :: cs) = c :: more := bareCode_of_quote hq
      obtain ⟨more, hmore⟩ := hbare
      refine ⟨c, ?_, telling_of_isQuote hq⟩
      rw [hmore]
      exact List.mem_cons_self
    · rw [marks_of_no_comment hc, if_neg hq] at hm
      rw [bareCode_of_not_quote (by simpa using hq) hc]
      rcases List.mem_cons.mp hm with rfl | hm
      · exact ⟨c, List.mem_cons_self, ht⟩
      · obtain ⟨y, hy, hty⟩ := ih hm
        exact ⟨y, List.mem_cons_of_mem _ hy, hty⟩

/-! ## The second statement -/

theorem contains_semicolon_of_telling {front back : List Char} {c : Char} (hc : c ∈ back)
    (ht : Telling c) : (dropEnd ';' (trimEnd (front ++ ';' :: back))).contains ';' = true := by
  obtain ⟨left, right, rfl⟩ := List.append_of_mem hc
  have hshape : front ++ ';' :: (left ++ c :: right) = (front ++ ';' :: left) ++ c :: right := by
    simp
  obtain ⟨more, hmore⟩ := trimEnd_append_cons ht.1 (front ++ ';' :: left) right
  obtain ⟨more', hmore'⟩ := dropEnd_append_cons ht.2 (front ++ ';' :: left) more
  rw [hshape, hmore, hmore']
  simp

theorem judge_strict_of_hasSecondStatement {cs : List Char} (h : hasSecondStatement cs = true) :
    (judge .strict cs).isBlocked = true := by
  unfold judge
  split
  · rfl
  · split
    · rfl
    · rw [if_pos (by simp [Policy.strict, h])]
      rfl

/-- A semicolon of code, something telling behind it, and no escaped line feed in front of it:
the strict policy refuses the statement. -/
theorem a_second_statement_is_refused {sql : String} {before after : List (Char × Part)}
    (hm : marks .code sql.toList = before ++ (';', .code) :: after)
    (ht : ∃ m ∈ after, Telling m.1) (he : ('\n', .escaped) ∉ before) :
    (classify .strict sql).isBlocked = true := by
  obtain ⟨front, rest, hbare, rfl⟩ := bareCode_of_semicolon hm he
  obtain ⟨m, hmem, htell⟩ := ht
  obtain ⟨c, hc, hct⟩ := bareCode_of_telling hmem htell
  apply judge_strict_of_hasSecondStatement
  unfold hasSecondStatement
  have hcode : maskLiterals (stripComments sql.toList) = front ++ ';' :: bareCode rest := hbare
  rw [hcode]
  exact contains_semicolon_of_telling hc hct

/-- A second statement behind an escaped quote and a comment. -/
theorem a_stacked_drop_is_refused :
    (classify .strict "SELECT 'it\\'s' /* ; */ ; DROP TABLE users").isBlocked = true := by
  have hm : marks .code "SELECT 'it\\'s' /* ; */ ; DROP TABLE users".toList
      = marks .code "SELECT 'it\\'s' /* ; */ ".toList
        ++ (';', .code) :: marks .code " DROP TABLE users".toList := by decide
  refine a_second_statement_is_refused hm ⟨('D', .code), by decide, ?_⟩ (by decide)
  exact ⟨by decide, by decide⟩

/-- Behind a literal that holds an escaped line feed, the passes take the next quote for the
opening one, and the second statement for a part of a literal. -/
theorem an_escaped_line_feed_hides_a_statement :
    ∃ sql before after, marks .code sql.toList = before ++ (';', .code) :: after ∧
      (∃ m ∈ after, Telling m.1) ∧ (classify .strict sql).isBlocked = false := by
  refine ⟨"SELECT '\\\n' ; DROP TABLE t -- '", marks .code "SELECT '\\\n' ".toList,
    marks .code " DROP TABLE t -- '".toList, ?_, ?_, ?_⟩
  · decide
  · exact ⟨('D', .code), by decide, by decide, by decide⟩
  · decide +kernel

end QueryReview.Statement
