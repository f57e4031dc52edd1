-- A statement that the strict policy lets through is one statement for the server too. The verdict
-- takes the semicolons off the end of the code alone, and what is sent loses them from the text as
-- it was submitted, where the end may stand in a comment or behind a quote that nothing closes.
-- Both come to the same: what is cut off is mute, and the words in front are plain code.
import QueryReview.MySql.Statement
import QueryReview.Proofs.Statement.Tail

namespace QueryReview.MySql

open Statement Text

/-- What is sent of a query is all of it but white space in front and a mute tail. -/
theorem exists_bareQuery_ends (sql : String) :
    ∃ front tail, sql.toList = front ++ (bareQuery sql ++ tail) ∧
      (∀ c ∈ front, isBlank c = true) ∧ Mute tail := by
  obtain ⟨front, back, htext, hfront, hback⟩ := exists_blank_ends sql.toList
  obtain ⟨semicolons, hquery, hsemicolons⟩ := exists_dropEnd_append ';' (trim sql.toList)
  refine ⟨front, semicolons ++ back, ?_, hfront, ?_⟩
  · rw [← List.append_assoc (bareQuery sql)]
    unfold bareQuery
    rw [← hquery]
    exact htext
  · intro c hc
    rcases List.mem_append.mp hc with hc | hc
    · obtain rfl := hsemicolons c hc
      exact fun htell => htell.2 rfl
    · exact mute_of_blank hback c hc

/-- The code that is sent stands in the code that was submitted, between white space and a mute
tail. -/
theorem exists_bareCode_bareQuery (sql : String) :
    ∃ front tail, bareCode sql.toList = front ++ (bareCode (bareQuery sql) ++ tail) ∧
      (∀ c ∈ front, isBlank c = true) ∧ Mute tail := by
  obtain ⟨front, tail, htext, hfront, htail⟩ := exists_bareQuery_ends sql
  obtain ⟨left, hleft, hcode⟩ := bareCode_append_mute htail (bareQuery sql)
  refine ⟨front, left, ?_, hfront, htail.of_suffix hleft⟩
  rw [htext, pass_bareCode.plain_append (mute_of_blank hfront).plain, hcode]

/-- The words in front of the query are code, and the query is read as if it stood alone. -/
theorem bareCode_explainStatement (mode : Plan.Mode) (sql : String) :
    bareCode (explainStatement mode sql).toList
      = (explainWords mode).toList ++ bareCode (bareQuery sql) := by
  have hplain : ∀ c ∈ (explainWords mode).toList, isQuote c = false ∧ c ≠ '-' ∧ c ≠ '/' := by
    cases mode <;> simp [explainWords, Plan.Mode.isActual, isQuote]
  unfold explainStatement
  rw [String.toList_append, String.toList_ofList, pass_bareCode.plain_append hplain]

/-- No semicolon stands in the words, so one behind them stands in the query. -/
theorem exists_semicolon_of_explainWords {mode : Plan.Mode} {code front back : List Char}
    (h : (explainWords mode).toList ++ code = front ++ ';' :: back) :
    ∃ more, code = more ++ ';' :: back := by
  have hwords : ';' ∉ (explainWords mode).toList := by
    cases mode <;> decide
  obtain ⟨more, _, hcode⟩ | ⟨more, hcut, hrest⟩ := List.append_eq_append_iff.mp h
  · exact ⟨more, hcode⟩
  · rcases List.cons_eq_append_iff.mp hrest with ⟨_, hcode⟩ | ⟨_, hmore, _⟩
    · exact ⟨[], hcode⟩
    · exact absurd (by simp [hcut, hmore]) hwords

/-! ## The strict policy -/

/-- A semicolon that the strict policy lets pass has nothing telling behind it. -/
theorem not_telling_behind_semicolon {sql : String} (h : classify .strict sql = .safe)
    {front back : List Char} (hcode : bareCode sql.toList = front ++ ';' :: back) :
    Mute back := by
  intro c hc htell
  have hsecond : hasSecondStatement (stripComments sql.toList) = true := by
    unfold hasSecondStatement
    have hmask : maskLiterals (stripComments sql.toList) = front ++ ';' :: back := hcode
    rw [hmask]
    exact contains_semicolon_of_telling hc htell
  have hblocked : (classify .strict sql).isBlocked = true :=
    judge_strict_of_hasSecondStatement hsecond
  rw [h] at hblocked
  cases hblocked

/-- Of a statement that the strict policy lets through, what is sent holds one statement: no
semicolon of its code has more behind it than semicolons and white space. Its code is the one that
was submitted, with the words in front, but for white space before it and a mute tail. -/
theorem a_safe_statement_stays_alone_when_it_is_sent {sql : String}
    (h : classify .strict sql = .safe) (mode : Plan.Mode) :
    (∀ front back, bareCode (explainStatement mode sql).toList = front ++ ';' :: back →
      ∀ c ∈ back, isBlank c = true ∨ c = ';') ∧
    ∃ front code tail, bareCode sql.toList = front ++ (code ++ tail) ∧
      (∀ c ∈ front, isBlank c = true) ∧ Mute tail ∧
      bareCode (explainStatement mode sql).toList = (explainWords mode).toList ++ code := by
  obtain ⟨lead, tail, hsubmitted, hlead, htail⟩ := exists_bareCode_bareQuery sql
  have hsent := bareCode_explainStatement mode sql
  refine ⟨?_, lead, _, tail, hsubmitted, hlead, htail, hsent⟩
  intro front back hcode
  obtain ⟨more, hquery⟩ : ∃ more, bareCode (bareQuery sql) = more ++ ';' :: back :=
    exists_semicolon_of_explainWords (hsent ▸ hcode)
  have hall : bareCode sql.toList = (lead ++ more) ++ ';' :: (back ++ tail) := by
    rw [hsubmitted, hquery]
    simp
  intro c hc
  have hmute : ¬ Telling c := not_telling_behind_semicolon h hall c (List.mem_append_left _ hc)
  by_cases hb : isBlank c = true
  · exact .inl hb
  · refine .inr ?_
    by_contra hne
    exact hmute ⟨by simpa using hb, hne⟩

/-- A quoted semicolon, one at the end of the query and one behind it in a comment. -/
theorem a_commented_end_stays_one_statement :
    classify .strict "SELECT 'a;b' FROM t; -- x;" = .safe ∧
    ∀ front back,
      bareCode (explainStatement .actual "SELECT 'a;b' FROM t; -- x;").toList
        = front ++ ';' :: back →
      ∀ c ∈ back, isBlank c = true ∨ c = ';' := by
  have h : classify .strict "SELECT 'a;b' FROM t; -- x;" = .safe := by decide +kernel
  exact ⟨h, (a_safe_statement_stays_alone_when_it_is_sent h .actual).1⟩

end QueryReview.MySql
