-- White space and comments in front of a statement. The passes leave white space of them and start
-- anew behind it, whatever the comments say and however the statement goes on. Behind white space
-- the tests find what they find without it: no word starts with white space or is continued by it,
-- and it is no semicolon.
import QueryReview.Proofs.Statement.TableNames
import QueryReview.Proofs.Statement.Tail

namespace QueryReview.Statement

open Piece Text

/-! ## What stands in front -/

/-- White space, line comments with the line feeds that end them, and closed block comments. -/
inductive Trivia : List Char → Prop
  | nil : Trivia []
  | blank {c : Char} {cs : List Char} : isBlank c = true → Trivia cs → Trivia (c :: cs)
  | lineComment {body cs : List Char} :
      '\n' ∉ body → Trivia cs → Trivia ('-' :: '-' :: (body ++ '\n' :: cs))
  | blockComment {body cs : List Char} :
      occursIn ['*', '/'] body = false → Trivia cs →
        Trivia ('/' :: '*' :: (body ++ '*' :: '/' :: cs))

section Passes

variable {pass : List Char → List Char} {literal : Char → List Char → List Char}

theorem Pass.blank_append (hp : Pass pass literal) {gap : List Char}
    (hg : ∀ c ∈ gap, isBlank c = true) (cs : List Char) : pass (gap ++ cs) = gap ++ pass cs :=
  hp.plain_append (mute_of_blank hg).plain cs

/-- Of what stands in front a pass leaves white space, and it starts anew behind it. -/
theorem Pass.exists_trivia (hp : Pass pass literal) {front : List Char} (h : Trivia front) :
    ∃ gap, (∀ c ∈ gap, isBlank c = true) ∧ ∀ cs, pass (front ++ cs) = gap ++ pass cs := by
  induction h with
  | nil => exact ⟨[], by simp, fun _ => rfl⟩
  | @blank c front hc _ ih =>
    obtain ⟨gap, hgap, hpass⟩ := ih
    refine ⟨c :: gap, List.forall_mem_cons.mpr ⟨hc, hgap⟩, fun cs => ?_⟩
    have hone : ∀ d ∈ [c], isBlank d = true := by simpa using hc
    have hfirst := hp.blank_append hone (front ++ cs)
    rw [List.singleton_append, hpass] at hfirst
    exact hfirst
  | @lineComment body front hbody _ ih =>
    obtain ⟨gap, hgap, hpass⟩ := ih
    refine ⟨' ' :: '\n' :: gap, ?_, fun cs => ?_⟩
    · exact List.forall_mem_cons.mpr ⟨by decide, List.forall_mem_cons.mpr ⟨by decide, hgap⟩⟩
    · have hone : ∀ d ∈ ['\n'], isBlank d = true := List.forall_mem_singleton.mpr (by decide)
      have hfeed := hp.blank_append hone (front ++ cs)
      have hnext : ∀ d ∈ ('\n' :: (front ++ cs)).head?, d = '\n' := by simp
      rw [List.singleton_append, hpass] at hfeed
      simpa [hfeed] using hp.comment (commentAt?_lineComment hbody hnext)
  | @blockComment body front hbody _ ih =>
    obtain ⟨gap, hgap, hpass⟩ := ih
    refine ⟨' ' :: gap, List.forall_mem_cons.mpr ⟨by decide, hgap⟩, fun cs => ?_⟩
    have hcomment := commentAt?_blockComment hbody (front ++ cs)
    simpa [hpass] using hp.comment hcomment

end Passes

/-! ## The tests behind white space -/

theorem startsDisallowed_of_isBlank {c : Char} (hc : isBlank c = true) (cs : List Char) :
    startsDisallowed (c :: cs) = false := by
  have hnone : ∀ word : List Char, isWord word = true → afterWord? word (c :: cs) = none :=
    fun word hw => afterWord?_of_isBlank hw hc cs
  simp only [startsDisallowed, opensCall, namesServerFile, hnone "EXEC".toList (by decide),
    hnone "LOAD_FILE".toList (by decide), hnone "INTO".toList (by decide), Bool.or_self]

theorem nameAt?_of_isBlank {c : Char} (hc : isBlank c = true) (before : Option Char)
    (cs : List Char) : nameAt? before (c :: cs) = none := by
  have hnone : ∀ word : List Char, isWord word = true → afterWord? word (c :: cs) = none :=
    fun word hw => afterWord?_of_isBlank hw hc cs
  have hname : nameAfterKeyword? (c :: cs) = none := by
    rw [nameAfterKeyword?, hnone "FROM".toList (by decide), hnone "JOIN".toList (by decide)]
    rfl
  unfold nameAt?
  rw [hname, ite_self]

section Gap

variable {gap : List Char} (hg : ∀ c ∈ gap, isBlank c = true)
include hg

theorem startsDestructive_blank_append (cs : List Char) :
    startsDestructive (gap ++ cs) = startsDestructive cs := by
  unfold startsDestructive trimStart
  rw [List.dropWhile_append_of_pos hg]

/-- A word may start behind white space at the start of a text, as in front of it. -/
theorem wordMayStart_blank : wordMayStart (gap.getLast?.or none) = wordMayStart none := by
  cases hlast : gap.getLast? with
  | none => rfl
  | some c => simp [wordMayStart, isWordChar_of_isBlank (hg c (List.mem_of_getLast? hlast))]

theorem hasDisallowed_blank_append (cs : List Char) :
    hasDisallowed (gap ++ cs) = hasDisallowed cs := by
  unfold hasDisallowed
  rw [anyWordStart_skip fun c hc => startsDisallowed_of_isBlank (hg c hc)]
  exact anyWordStart_congr (wordMayStart_blank hg) cs

theorem hasSecondStatement_blank_append (cs : List Char) :
    hasSecondStatement (gap ++ cs) = hasSecondStatement cs := by
  have hsemicolon : ';' ∉ gap := fun hmem => absurd (hg _ hmem) (by decide)
  have hquote : ∀ c ∈ gap, isQuote c = false := fun c hc => ((mute_of_blank hg).plain c hc).1
  rw [Bool.eq_iff_iff, hasSecondStatement_iff_exists, hasSecondStatement_iff_exists,
    maskLiterals_plain_append hquote]
  constructor
  · rintro ⟨front, c, back, he, hmem, hc, hback⟩
    rcases List.append_eq_append_iff.mp he with ⟨more, rfl, hcs⟩ | ⟨more, rfl, _⟩
    · exact ⟨more, c, back, hcs, (List.mem_append.mp hmem).resolve_left hsemicolon, hc, hback⟩
    · exact absurd (List.mem_append_left _ hmem) hsemicolon
  · rintro ⟨front, c, back, hcs, hmem, hrest⟩
    refine ⟨gap ++ front, c, back, ?_, List.mem_append_right _ hmem, hrest⟩
    rw [hcs, List.append_assoc]

theorem judge_blank_append (policy : Policy) (cs : List Char) :
    judge policy (gap ++ cs) = judge policy cs := by
  unfold judge
  rw [startsDestructive_blank_append hg, hasDisallowed_blank_append hg,
    hasSecondStatement_blank_append hg]

theorem writtenNames_blank_append (cs : List Char) :
    writtenNames none (gap ++ cs) = writtenNames none cs := by
  rw [writtenNames_append]
  · exact writtenNames_congr (wordMayStart_blank hg) cs
  · rintro front c back rfl
    exact nameAt?_of_isBlank (hg c (by simp)) _ _

end Gap

/-- White space and comments in front of a statement change neither the verdict on it nor the tables
that it names. -/
theorem leading_trivia_changes_nothing {front : String} (h : Trivia front.toList) (sql : String) :
    (∀ policy, classify policy (front ++ sql) = classify policy sql) ∧
    tableNames (front ++ sql) = tableNames sql := by
  obtain ⟨gap, hgap, hstrip⟩ := pass_stripComments.exists_trivia h
  obtain ⟨gap', hgap', hbare⟩ := pass_bareCode.exists_trivia h
  constructor
  · intro policy
    rw [classify, String.toList_append, hstrip, judge_blank_append hgap]
    rfl
  · rw [tableNames, String.toList_append, hbare, writtenNames_blank_append hgap']
    rfl

/-- Two comments that name a harmless statement, a table and an apostrophe, in front of a text with
an apostrophe that has no partner. -/
theorem comments_cannot_fake_a_safe_start :
    let front := "/* it's SELECT */\t-- FROM x\n"
    let sql := "DROP TABLE t; SELECT ' FROM u"
    Trivia front.toList ∧ (∀ policy, classify policy (front ++ sql) = classify policy sql) ∧
    tableNames (front ++ sql) = tableNames sql := by
  intro front sql
  have hfront : front.toList = '/' :: '*' :: (" it's SELECT ".toList ++ '*' :: '/' :: '\t'
      :: '-' :: '-' :: (" FROM x".toList ++ '\n' :: [])) := by decide
  have h : Trivia front.toList := by
    rw [hfront]
    exact .blockComment (by decide) (.blank (by decide) (.lineComment (by decide) .nil))
  exact ⟨h, leading_trivia_changes_nothing h sql⟩

end QueryReview.Statement
