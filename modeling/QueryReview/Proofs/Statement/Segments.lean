-- Statements written in segments: code, literals and comments, each ended where it should be. Of
-- such a statement the two passes leave the code, the quotes and a space for each comment, so it
-- makes no difference what the literals and the comments say.
import Mathlib.Data.List.Chain
import QueryReview.Proofs.Statement.Pieces
import QueryReview.Statement.TableNames
import QueryReview.Statement.Verdict

namespace QueryReview.Statement

open Piece Text

/-! ## Segments -/

inductive Segment
  | code (text : List Char)
  | literal (quote : Char) (body : List Char)
  /-- A comment behind two dashes, without its line feed. -/
  | lineComment (body : List Char)
  | blockComment (body : List Char)

/-- What may stand between two quotes `q`: characters other than `q` and the backslash, and a
backslash with any character behind it but a line feed. -/
inductive LiteralBody (q : Char) : List Char → Prop
  | nil : LiteralBody q []
  | plain {c : Char} {cs : List Char} :
      c ≠ q → c ≠ '\\' → LiteralBody q cs → LiteralBody q (c :: cs)
  | escape {d : Char} {ds : List Char} :
      d ≠ '\n' → LiteralBody q ds → LiteralBody q ('\\' :: d :: ds)

/-- The two characters in a row open a comment. -/
def opensComment (c d : Char) : Bool := (c == '-' && d == '-') || (c == '/' && d == '*')

namespace Segment

def text : Segment → List Char
  | code cs => cs
  | literal q body => q :: body ++ [q]
  | lineComment body => '-' :: '-' :: body
  | blockComment body => '/' :: '*' :: (body ++ ['*', '/'])

/-- The segment is of one kind: no quote stands in code, and nothing ends a body early. -/
def Whole : Segment → Prop
  | code cs => ∀ c ∈ cs, isQuote c = false
  | literal q body => isQuote q = true ∧ LiteralBody q body
  | lineComment body => '\n' ∉ body
  | blockComment body => occursIn ['*', '/'] body = false

/-- The segment with nothing in its body. -/
def hollow : Segment → Segment
  | code cs => code cs
  | literal q _ => literal q []
  | lineComment _ => lineComment []
  | blockComment _ => blockComment []

/-- The segment with nothing in its body if it is a comment. -/
def hollowComment : Segment → Segment
  | lineComment _ => lineComment []
  | blockComment _ => blockComment []
  | s => s

/-- What is left of the segment when code is kept, a comment becomes a space, and a literal
becomes what is said. -/
def left (literal : Char → List Char → List Char) : Segment → List Char
  | code cs => cs
  | .literal q body => literal q body
  | lineComment _ | blockComment _ => [' ']

end Segment

/-- The segments in a row. -/
def written (ss : List Segment) : List Char := ss.flatMap Segment.text

/-- The segments stay what they are when they stand in a row: no comment opens in the code or
where it meets the next segment, and a line comment is followed by a line feed or by nothing. -/
def Joined : List Segment → Prop
  | [] => True
  | .code cs :: rest =>
    (cs ++ (written rest).head?.toList).IsChain (fun c d => opensComment c d = false) ∧ Joined rest
  | .lineComment _ :: rest => (∀ c ∈ (written rest).head?, c = '\n') ∧ Joined rest
  | _ :: rest => Joined rest

/-! ## How the segments meet does not hang on the bodies -/

theorem head?_written_hollow (ss : List Segment) :
    (written (ss.map Segment.hollow)).head? = (written ss).head? := by
  induction ss with
  | nil => rfl
  | cons s rest ih =>
    cases s with
    | code cs =>
      cases cs with
      | nil => simpa [written, Segment.text, Segment.hollow] using ih
      | cons c cs => rfl
    | literal q body => rfl
    | lineComment body => rfl
    | blockComment body => rfl

theorem joined_hollow (ss : List Segment) : Joined (ss.map Segment.hollow) ↔ Joined ss := by
  induction ss with
  | nil => rfl
  | cons s rest ih =>
    cases s with
    | code cs => simp only [List.map_cons, Segment.hollow, Joined, head?_written_hollow, ih]
    | literal q body => exact ih
    | lineComment body =>
      simp only [List.map_cons, Segment.hollow, Joined, head?_written_hollow, ih]
    | blockComment body => exact ih

theorem joined_congr {ss ss' : List Segment} (h : ss'.map Segment.hollow = ss.map Segment.hollow)
    (hj : Joined ss) : Joined ss' := by
  rw [← joined_hollow, h, joined_hollow]
  exact hj

/-! ## Where a segment ends -/

theorem literalBody?_of_literalBody {q : Char} (hq : isQuote q = true) {body : List Char}
    (h : LiteralBody q body) (rest : List Char) :
    literalBody? q (body ++ q :: rest) = some (body, rest) := by
  have hb : '\\' ≠ q := ne_of_isQuote hq (by decide)
  induction h with
  | nil => exact literalBody?_quote q rest
  | plain hc hn _ ih => simp [literalBody?_cons hc hn, ih]
  | escape hd _ ih => simp [literalBody?_escape hb hd, ih]

theorem blockBody_of_closed {body : List Char} (h : occursIn ['*', '/'] body = false)
    (rest : List Char) :
    blockBody (body ++ '*' :: '/' :: rest) = (body ++ ['*', '/'], rest) := by
  induction body with
  | nil => simp [blockBody]
  | cons c cs ih =>
    simp only [occursIn, Bool.or_eq_false_iff] at h
    obtain ⟨hstart, hrest⟩ := h
    -- The first two characters do not close the comment, also where the body ends behind the first.
    have hopen : ∀ tail, c :: (cs ++ '*' :: '/' :: rest) ≠ '*' :: '/' :: tail := by
      intro tail he
      cases cs with
      | nil => cases he
      | cons d ds =>
        cases he
        simp [startsWith, after?] at hstart
    rw [List.cons_append, blockBody.eq_def]
    split
    · rename_i he
      cases he
    · rename_i he
      exact absurd he (hopen _)
    · rename_i he
      cases he
      rw [ih hrest]
      rfl

theorem commentAt?_lineComment {body : List Char} (h : '\n' ∉ body) {rest : List Char}
    (hr : ∀ c ∈ rest.head?, c = '\n') :
    commentAt? ('-' :: '-' :: (body ++ rest)) = some (comment ('-' :: '-' :: body), rest) := by
  have hbody : ∀ c ∈ body, (c != '\n') = true := by
    intro c hc
    simp only [bne_iff_ne, ne_eq]
    rintro rfl
    exact h hc
  have hrest : rest.takeWhile (· != '\n') = [] ∧ rest.dropWhile (· != '\n') = rest := by
    cases rest with
    | nil => exact ⟨rfl, rfl⟩
    | cons c cs =>
      obtain rfl : c = '\n' := hr c rfl
      exact ⟨rfl, rfl⟩
  simp only [commentAt?]
  rw [List.takeWhile_append_of_pos hbody, List.dropWhile_append_of_pos hbody, hrest.1, hrest.2,
    List.append_nil]

theorem commentAt?_blockComment {body : List Char} (h : occursIn ['*', '/'] body = false)
    (rest : List Char) :
    commentAt? ('/' :: '*' :: (body ++ '*' :: '/' :: rest))
      = some (comment ('/' :: '*' :: (body ++ ['*', '/'])), rest) := by
  simp only [commentAt?]
  rw [blockBody_of_closed h]

theorem commentAt?_eq_none_of_code {c : Char} {rest : List Char}
    (h : ∀ d ∈ rest.head?, opensComment c d = false) : commentAt? (c :: rest) = none := by
  unfold commentAt?
  split
  · rename_i he
    cases he
    exact absurd (h '-' rfl) (by decide)
  · rename_i he
    cases he
    exact absurd (h '*' rfl) (by decide)
  · rfl

/-! ## Passes -/

/-- The pass goes from left to right and takes the segments one by one. -/
structure Pass (pass : List Char → List Char) (literal : Char → List Char → List Char) : Prop where
  nil : pass [] = []
  code : ∀ {c cs}, isQuote c = false → commentAt? (c :: cs) = none → pass (c :: cs) = c :: pass cs
  literal : ∀ {q cs body rest}, isQuote q = true → literalBody? q cs = some (body, rest) →
    pass (q :: cs) = literal q body ++ pass rest
  comment : ∀ {cs p rest}, commentAt? cs = some (p, rest) → pass cs = ' ' :: pass rest

section

variable {pass : List Char → List Char} {literal : Char → List Char → List Char}

theorem Pass.code_append (hp : Pass pass literal) {cs rest : List Char}
    (hq : ∀ c ∈ cs, isQuote c = false)
    (hj : (cs ++ rest.head?.toList).IsChain fun c d => opensComment c d = false) :
    pass (cs ++ rest) = cs ++ pass rest := by
  induction cs with
  | nil => rfl
  | cons c cs ih =>
    simp only [List.cons_append, List.isChain_cons] at hj
    have hnone : commentAt? (c :: (cs ++ rest)) = none := by
      apply commentAt?_eq_none_of_code
      intro d hd
      apply hj.1 d
      cases cs with
      | nil =>
        rw [List.nil_append] at hd ⊢
        rw [Option.mem_def] at hd
        simp [hd]
      | cons e es => exact hd
    rw [List.cons_append, hp.code (hq c (by simp)) hnone,
      ih (fun d hd => hq d (List.mem_cons_of_mem _ hd)) hj.2]
    rfl

/-- The pass takes the segments one by one also in front of a text that is not in segments, when
that starts as segments would that may follow. -/
theorem Pass.written_append (hp : Pass pass literal) {ss more : List Segment} {tail : List Char}
    (hw : ∀ s ∈ ss, s.Whole) (hj : Joined (ss ++ more)) (ht : tail.head? = (written more).head?) :
    pass (written ss ++ tail) = ss.flatMap (Segment.left literal) ++ pass tail := by
  induction ss with
  | nil => rfl
  | cons s rest ih =>
    have hs : s.Whole := hw s List.mem_cons_self
    have hrest : ∀ s ∈ rest, s.Whole := fun s h => hw s (List.mem_cons_of_mem _ h)
    have hhead : (Statement.written rest ++ tail).head?
        = (Statement.written (rest ++ more)).head? := by
      simp only [Statement.written, List.flatMap_append, List.head?_append, ht]
    have hcons : Statement.written (s :: rest) = s.text ++ Statement.written rest := rfl
    rw [List.flatMap_cons, hcons, List.append_assoc, List.append_assoc]
    cases s with
    | code cs =>
      rw [← ih hrest hj.2]
      apply hp.code_append hs
      rw [hhead]
      exact hj.1
    | literal q body =>
      have hbody := literalBody?_of_literalBody hs.1 hs.2 (Statement.written rest ++ tail)
      rw [← ih hrest hj]
      simpa [Segment.text, Segment.left] using hp.literal hs.1 hbody
    | lineComment body =>
      rw [← ih hrest hj.2]
      apply hp.comment
      apply commentAt?_lineComment hs
      rw [hhead]
      exact hj.1
    | blockComment body =>
      have hat := commentAt?_blockComment hs (Statement.written rest ++ tail)
      rw [← ih hrest hj]
      simpa [Segment.text, Segment.left] using hp.comment hat

theorem Pass.written (hp : Pass pass literal) {ss : List Segment} (hw : ∀ s ∈ ss, s.Whole)
    (hj : Joined ss) : pass (written ss) = ss.flatMap (Segment.left literal) := by
  have hjoined : Joined (ss ++ []) := by rwa [List.append_nil]
  have h := hp.written_append hw hjoined (Eq.refl (List.head? []))
  rwa [List.append_nil, hp.nil, List.append_nil] at h

end

theorem pass_stripComments : Pass stripComments fun q body => q :: (body ++ [q]) where
  nil := by simp [stripComments, split]
  code hq hc := stripComments_code (literalAt?_eq_none fun h => by simp [hq] at h) hc
  literal hq h := by
    unfold stripComments
    rw [split_literal (literalAt?_cons hq h)]
    simp [withoutComment, Piece.text]
  comment h := by
    obtain ⟨⟨words, rfl⟩, _⟩ := commentAt?_cases h
    unfold stripComments
    rw [split_comment h]
    rfl

theorem pass_bareCode : Pass bareCode fun q _ => [q, q] where
  nil := by simp [bareCode, stripComments, maskLiterals, split, splitLiterals]
  code hq hc := bareCode_of_not_quote hq hc
  literal hq h := bareCode_literal hq h
  comment h := bareCode_comment h

/-! ## What the bodies say makes no difference -/

theorem stripComments_congr {ss ss' : List Segment} (hw : ∀ s ∈ ss, s.Whole)
    (hw' : ∀ s ∈ ss', s.Whole) (hj : Joined ss) (hj' : Joined ss')
    (hc : ss'.map Segment.hollowComment = ss.map Segment.hollowComment) :
    stripComments (written ss') = stripComments (written ss) := by
  have hleft : ∀ s : Segment, s.hollowComment.left (fun q body => q :: (body ++ [q]))
      = s.left fun q body => q :: (body ++ [q]) := by
    intro s
    cases s <;> rfl
  rw [pass_stripComments.written hw hj, pass_stripComments.written hw' hj']
  have h := congrArg (List.flatMap (Segment.left fun q body => q :: (body ++ [q]))) hc
  simpa only [List.flatMap_map, hleft] using h

theorem bareCode_congr {ss ss' : List Segment} (hw : ∀ s ∈ ss, s.Whole)
    (hw' : ∀ s ∈ ss', s.Whole) (hj : Joined ss) (hj' : Joined ss')
    (hh : ss'.map Segment.hollow = ss.map Segment.hollow) :
    bareCode (written ss') = bareCode (written ss) := by
  have hleft : ∀ s : Segment, s.hollow.left (fun q _ => [q, q]) = s.left fun q _ => [q, q] := by
    intro s
    cases s <;> rfl
  rw [pass_bareCode.written hw hj, pass_bareCode.written hw' hj']
  have h := congrArg (List.flatMap (Segment.left fun q _ => [q, q])) hh
  simpa only [List.flatMap_map, hleft] using h

/-- Let the bodies of any literals and comments say something else. The statement names the same
tables, and it has a second statement or not as before. Where only comments say something else, the
verdict is the same too. -/
theorem literals_and_comments_are_inert {ss ss' : List Segment} (hw : ∀ s ∈ ss, s.Whole)
    (hw' : ∀ s ∈ ss', s.Whole) (hj : Joined ss)
    (hh : ss'.map Segment.hollow = ss.map Segment.hollow) :
    let sql := String.ofList (written ss)
    let sql' := String.ofList (written ss')
    tableNames sql' = tableNames sql ∧
    hasSecondStatement (stripComments sql'.toList) = hasSecondStatement (stripComments sql.toList) ∧
    (ss'.map Segment.hollowComment = ss.map Segment.hollowComment →
      ∀ policy, classify policy sql' = classify policy sql) := by
  have hj' := joined_congr hh hj
  have hbare := bareCode_congr hw hw' hj hj' hh
  simp only [tableNames, classify, String.toList_ofList]
  refine ⟨by rw [hbare], ?_, ?_⟩
  · unfold hasSecondStatement
    exact congrArg (fun cs => (dropEnd ';' (trimEnd cs)).contains ';') hbare
  · intro hc policy
    rw [stripComments_congr hw hw' hj hj' hc]

/-- A literal that comes to hold an escaped quote and a semicolon, and a comment that comes to name
a table. -/
theorem a_quoted_semicolon_is_inert :
    let frame (quoted said : String) : List Segment :=
      [.literal '\x27' quoted.toList, .code " FROM t ".toList, .blockComment said.toList]
    let sql := String.ofList (written (frame "a" "b"))
    let sql' := String.ofList (written (frame "\\';" "FROM u"))
    tableNames sql' = tableNames sql ∧
    hasSecondStatement (stripComments sql'.toList) = hasSecondStatement (stripComments sql.toList) ∧
    ∀ policy, classify policy (String.ofList (written (frame "a" "FROM u")))
      = classify policy sql := by
  intro frame sql sql'
  have hwhole : ∀ quoted said : String, LiteralBody '\x27' quoted.toList →
      occursIn ['*', '/'] said.toList = false → ∀ s ∈ frame quoted said, s.Whole := by
    intro quoted said hq hs
    have hcode : ∀ c ∈ " FROM t ".toList, isQuote c = false := by simp [isQuote]
    simp only [frame, List.forall_mem_cons]
    exact ⟨⟨rfl, hq⟩, hcode, hs, by simp⟩
  have ha : LiteralBody '\x27' "a".toList := .plain (by decide) (by decide) .nil
  have hquote : LiteralBody '\x27' "\\';".toList :=
    .escape (by decide) (.plain (by decide) (by decide) .nil)
  have hjoined : Joined (frame "a" "b") := by
    have hcode : (" FROM t ".toList ++ ['/']).IsChain fun c d => opensComment c d = false := by
      decide
    exact ⟨hcode, trivial⟩
  have hw := hwhole "a" "b" ha (by decide)
  obtain ⟨htables, hsecond, _⟩ := literals_and_comments_are_inert hw
    (hwhole "\\';" "FROM u" hquote (by decide)) hjoined rfl
  obtain ⟨_, _, hverdict⟩ := literals_and_comments_are_inert hw
    (hwhole "a" "FROM u" ha (by decide)) hjoined rfl
  exact ⟨htables, hsecond, hverdict rfl⟩

end QueryReview.Statement
